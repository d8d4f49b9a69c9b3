import DayuAgent.Agents.Fleet
import DayuAgent.Memory.Reachable
import Mathlib.Tactic.Linarith

/-! One call of `_run_provider_with_retry`: what a task does between its first increment and
the end of the loop, whatever the provider answers and whenever the clock is read. -/

namespace DayuAgent

open Library InMemorySessionStore

/-- Inside `_run_provider_with_retry`. -/
def Phase.Retrying : Phase → Prop
  | .incrementing _ | .calling _ | .streaming _ | .persisting _ _ _ | .sleeping _ => True
  | _ => False

instance : (phase : Phase) → Decidable phase.Retrying
  | .incrementing _ | .calling _ | .streaming _ | .persisting _ _ _ | .sleeping _ => .isTrue trivial
  | .created | .marking | .guardingTool _ _ _ | .executingTool _ _ | .loading
  | .checkingOutput _ _ | .committing _ | .cancelling | .failing _ _ | .finished _ => .isFalse id

def Phase.attempt : Phase → Option Attempt
  | .calling attempt | .streaming attempt | .persisting attempt _ _ => some attempt
  | _ => none

/-- The exception with which a task has left its body. -/
def Phase.raised : Phase → Option PyException
  | .failing error _ | .finished (.error error) => some error
  | .cancelling => some .cancelled
  | _ => none

/-- The task in the loop, its store and the earliest time that the clock can read next. -/
structure RetryLoop where
  task : Task
  store : InMemorySessionStore
  due : ℚ

inductive RetryMove where
  | effect (ambient : Ambient)
  | resume (input : Input) (clock : Clock)

/-- What one step of the loop shows; a failed attempt shows the delay that it is slept for. -/
inductive RetryEvent where
  | counted
  | invoked (now : ℚ)
  | expired (now : ℚ)
  | received
  | emitted (delta : String)
  | persisted
  | failed (error : PyException) (delay : Option ℚ)
  | woke
  | returned
  | elsewhere

/-- The provider errors after which an attempt may be repeated, and any time-out. -/
def PyException.Retryable : PyException → Prop
  | .domain error => error.cls.isProviderError ∧ error.retryable
  | .other type => type = "TimeoutError"
  | _ => False

/-- The budget of the loop is spent. -/
def PyException.Exhausted : PyException → Prop
  | .domain error => error.cls = .retryBudgetExhaustedError
  | _ => False

instance : (error : PyException) → Decidable error.Exhausted
  | .domain error => inferInstanceAs (Decidable (error.cls = .retryBudgetExhaustedError))
  | .cancelled | .keyError _ | .other _ => .isFalse id

namespace RetryEvent

/-- The loop may go on: nothing is emitted and no attempt has ended for good. -/
def Calm : RetryEvent → Prop
  | .emitted _ | .expired _ | .returned => False
  | .failed error _ => error.Retryable
  | _ => True

def isCounted : RetryEvent → Bool
  | .counted => true
  | _ => false

def isInvoked : RetryEvent → Bool
  | .invoked _ => true
  | _ => false

def isExpired : RetryEvent → Bool
  | .expired _ => true
  | _ => false

/-- Something that the provider has streamed. -/
def isStreamed : RetryEvent → Bool
  | .received | .emitted _ => true
  | _ => false

def isOwn : RetryEvent → Bool
  | .elsewhere => false
  | _ => true

/-- The delay that is slept after an event. -/
def delay : RetryEvent → ℚ
  | .failed _ (some delay) => delay
  | _ => 0

/-- The sum of the backoff delays. -/
def slept : List RetryEvent → ℚ
  | [] => 0
  | event :: rest => event.delay + slept rest

theorem slept_append (early late : List RetryEvent) :
    slept (early ++ late) = slept early + slept late := by
  induction early with
  | nil => simp [slept]
  | cons event rest ih => rw [List.cons_append, slept, slept, ih, add_assoc]

end RetryEvent

namespace RetryLoop

variable (config : Config) (loop : RetryLoop)

/-- The delay of a task that goes to sleep. -/
def delay (clock : Clock) (task : Task) : Option ℚ :=
  match loop.task.phase.attempt, task.phase with
  | some attempt, .sleeping _ =>
    some (config.retryBudget.delayAfter attempt.attemptCount clock.randomValue)
  | _, _ => none

/-- A resumption reads the clock and the random source; a sleep takes its delay at least. -/
def resumed (clock : Clock) (task : Task) : RetryLoop :=
  { loop with task, due := clock.monotonic + (loop.delay config clock task).getD 0 }

/-- A store call takes effect and its reply is there to be read. -/
def answered (operation : Operation) (ambient : Ambient) : RetryLoop :=
  { loop with
    task := { loop.task with answer := some (operation.perform ambient loop.store).1 }
    store := (operation.perform ambient loop.store).2 }

def next : RetryMove → Option RetryLoop
  | .effect ambient =>
    match loop.task.answer, loop.task.operation config with
    | none, some operation =>
      if loop.task.phase.Retrying then some (loop.answered operation ambient) else none
    | _, _ => none
  | .resume input clock =>
    if loop.task.phase.Retrying ∧ loop.due ≤ clock.monotonic ∧ 0 ≤ clock.randomValue ∧
        clock.randomValue < 1 then
      (loop.task.resume config input clock).map fun result => loop.resumed config clock result.task
    else none

/-- The error with which an attempt ends, if it does not return. -/
def failure (attempt : Attempt) (answer : Option (Except PyException Reply)) :
    Input → Option PyException
  | .timeout => some timeoutError
  | .response (.error failure) | .event (.error failure) => some failure.exception
  | .event (.ok none) =>
    if attempt.finalResponse.isSome then none
    else some (.domain (.new .providerError
      (some "The provider stream ended without a final response.") none))
  | .wake => answer.bind fun | .error error => some error | .ok _ => none
  | _ => none

/-- What a resumption shows that goes on with its attempt. -/
def carried (task : Task) (input : Input) : Option RetryEvent :=
  match task.phase, input, task.answer with
  | .streaming _, .event (.ok (some event)), _ => match event.delta with
    | some delta => some (.emitted delta)
    | none => some .received
  | .persisting _ _ _, .wake, some (.ok _) => some .persisted
  | _, _, _ => none

/-- Invocations and their refusals are read off the task after the step. -/
def observed (after : RetryLoop) : RetryMove → RetryEvent
  | .effect _ => match loop.task.phase with
    | .incrementing _ => .counted
    | _ => .persisted
  | .resume input clock => match carried loop.task input with
    | some event => event
    | none =>
      if after.task.phase.attempt.isSome then .invoked clock.monotonic
      else match loop.task.phase.attempt, after.task.phase.raised with
        | some attempt, _ => match failure attempt loop.task.answer input with
          | some error => .failed error (loop.delay config clock after.task)
          | none => .returned
        | none, some error =>
          if error.Exhausted then .expired clock.monotonic else .failed error none
        | none, none => .woke

/-- One step of the loop, or a change of the store that leaves the run and its log alone. -/
inductive Steps : RetryEvent → RetryLoop → Prop where
  | own (move : RetryMove) (taken : loop.next config move = some after) :
      Steps (loop.observed config after move) after
  | elsewhere (store : InMemorySessionStore)
      (run : store.runs.get? loop.task.run.id = loop.store.runs.get? loop.task.run.id)
      (log : store.events.get? loop.task.run.id = loop.store.events.get? loop.task.run.id) :
      Steps .elsewhere { loop with store }

/-- The local variables of an attempt that has been counted and invoked. -/
structure Underway (started : ℚ) (events : List RetryEvent) (attempt : Attempt) : Prop where
  started : attempt.started = started
  attemptCount : attempt.attemptCount = events.countP RetryEvent.isCounted
  invoked : events.countP RetryEvent.isInvoked = events.countP RetryEvent.isCounted
  within : attempt.attemptCount ≤ config.retryBudget.maxAttempts
  expired : events.countP RetryEvent.isExpired = 0
  calm : attempt.emittedDelta = false → ∀ event ∈ events, event.Calm

/-- Between two attempts. -/
structure Between (started : ℚ) (events : List RetryEvent) (origin : ℚ) : Prop where
  started : origin = started
  calm : ∀ event ∈ events, event.Calm
  left : events.countP RetryEvent.isInvoked < config.retryBudget.maxAttempts

/-- Where the loop stands after the events that it has shown. -/
def Stage (started : ℚ) (events : List RetryEvent) (task : Task) : Prop :=
  match task.phase, task.answer with
  | .incrementing origin, none | .sleeping origin, none =>
    Between config started events origin ∧
      events.countP RetryEvent.isCounted = events.countP RetryEvent.isInvoked
  | .incrementing origin, some reply =>
    Between config started events origin ∧
      events.countP RetryEvent.isCounted = events.countP RetryEvent.isInvoked + 1 ∧
      ∃ durable : AgentRun, reply = .ok (.run durable) ∧
        durable.attemptCount = events.countP RetryEvent.isCounted
  | .calling attempt, _ | .streaming attempt, _ => Underway config started events attempt
  | .persisting attempt _ _, answer =>
    Underway config started events attempt ∧ ∀ reply ∈ answer, ∃ value, reply = .ok value
  | .sleeping _, some _ => False
  | _, _ =>
    events.countP RetryEvent.isCounted =
        events.countP RetryEvent.isInvoked + events.countP RetryEvent.isExpired ∧
      events.countP RetryEvent.isCounted ≤ config.retryBudget.maxAttempts ∧
      events.countP RetryEvent.isExpired ≤ 1

/-- The steps that are left of an attempt, as far as the provider streams nothing more. -/
def slack (task : Task) : Nat :=
  match task.phase, task.answer with
  | .incrementing _, none => 0
  | .incrementing _, some _ => 3
  | .calling _, _ | .streaming _, _ => 2
  | .persisting _ _ _, none => 4
  | .persisting _ _ _, some _ => 3
  | .sleeping _, _ => 1
  | _, _ => 0

/-- The invariant of the loop. -/
structure Budgeted (started : ℚ) (events : List RetryEvent) : Prop where
  record : ∃ record, loop.store.runs.get? loop.task.run.id = some record ∧
    record.status = .running ∧ record.attemptCount = events.countP RetryEvent.isCounted
  log : (loop.store.events.get? loop.task.run.id).isSome
  unsignalled : loop.task.cancelRequested = false
  time : started + RetryEvent.slept events ≤ loop.due
  budget : RetryEvent.slept events < config.retryBudget.maxElapsedSeconds
  delays : ∀ event ∈ events, 0 ≤ event.delay ∧ event.delay ≤ config.retryBudget.maxDelay
  stage : Stage config started events loop.task
  length : events.countP RetryEvent.isOwn + slack loop.task ≤
    4 * events.countP RetryEvent.isCounted + 3 * events.countP RetryEvent.isStreamed

section Steps

variable {config} {loop} {started : ℚ} {events : List RetryEvent}

/-- The task has left the loop. -/
structure Leaves (task later : Task) : Prop where
  ended : ¬ later.phase.Retrying
  run : later.run = task.run
  unsignalled : later.cancelRequested = task.cancelRequested

theorem except_leaves (config : Config) (task : Task) (error : PyException) :
    Leaves task (task.except config error) := by
  cases error <;> exact ⟨id, rfl, rfl⟩

private theorem retry_cases (task : Task) (attempt : Attempt) (error : DayuAgentError)
    (clock : Clock) :
    Leaves task (task.retry config attempt error clock).task ∨
    ((task.retry config attempt error clock).task = task.enter (.sleeping attempt.started) ∧
      config.retryBudget.permitsRetry attempt.attemptCount (clock.monotonic - attempt.started)
        (config.retryBudget.delayAfter attempt.attemptCount clock.randomValue) = true) := by
  unfold Task.retry
  dsimp only
  split
  · next permitted => exact .inr ⟨rfl, permitted⟩
  · dsimp only
    exact .inl (except_leaves config task _)

/-- A failed attempt is given up, or it is repeated within the budget. -/
theorem attemptFailed_cases (task : Task) (attempt : Attempt) (error : PyException)
    (clock : Clock) :
    Leaves task (task.attemptFailed config attempt error clock).task ∨
    ((task.attemptFailed config attempt error clock).task =
        task.enter (.sleeping attempt.started) ∧
      error.Retryable ∧ attempt.emittedDelta = false ∧
      config.retryBudget.permitsRetry attempt.attemptCount (clock.monotonic - attempt.started)
        (config.retryBudget.delayAfter attempt.attemptCount clock.randomValue) = true) := by
  unfold Task.attemptFailed
  split
  · next domain =>
    split
    · next provider =>
      split
      · dsimp only
        exact .inl (except_leaves config task _)
      · next repeatable =>
        simp only [not_or, Bool.not_eq_true, Bool.not_eq_false] at repeatable
        rcases retry_cases task attempt domain clock with given | ⟨sleeps, permitted⟩
        · exact .inl given
        · exact .inr ⟨sleeps, ⟨provider, repeatable.2⟩, repeatable.1, permitted⟩
    · dsimp only
      exact .inl (except_leaves config task _)
  · dsimp only
    split
    · dsimp only
      exact .inl (except_leaves config task _)
    · next silent =>
      rcases retry_cases task attempt (.new .providerTimeoutError none (some config.origin)) clock
        with given | ⟨sleeps, permitted⟩
      · exact .inl given
      · exact .inr ⟨sleeps, rfl, by simpa using silent, permitted⟩
  · dsimp only
    exact .inl (except_leaves config task _)

theorem attempt_none {phase : Phase} (ended : ¬ phase.Retrying) : phase.attempt = none := by
  cases phase <;> first | rfl | exact (ended trivial).elim

theorem attemptFailed_attempt (task : Task) (attempt : Attempt) (error : PyException)
    (clock : Clock) :
    (task.attemptFailed config attempt error clock).task.phase.attempt = none := by
  rcases attemptFailed_cases task attempt error clock with given | ⟨sleeps, _⟩
  · exact attempt_none given.ended
  · rw [sleeps]
    rfl

theorem checkOutput_ended (config : Config) (task : Task) (result : AgentResult) :
    ¬ (task.checkOutput config result).phase.Retrying := by
  simp only [Task.checkOutput, Task.guarded, Task.enter]
  split <;> exact id

/-- The local variables of an attempt that starts. -/
def firstAttempt (origin : ℚ) (durable : AgentRun) : Attempt :=
  { started := origin, attemptCount := durable.attemptCount, emittedDelta := false
    finalResponse := none }

/-- A counted attempt is invoked while there is time left, and given up afterwards. -/
theorem startAttempt_cases (task : Task) (origin : ℚ) (durable : AgentRun) (clock : Clock) :
    (clock.monotonic - origin < config.retryBudget.maxElapsedSeconds ∧ ∃ phase : Phase,
      (phase = .calling (firstAttempt origin durable) ∨
        phase = .streaming (firstAttempt origin durable)) ∧
      (task.startAttempt config origin durable clock).task = task.enter phase) ∨
    (config.retryBudget.maxElapsedSeconds ≤ clock.monotonic - origin ∧
      ∃ error code, error.Exhausted ∧
        (task.startAttempt config origin durable clock).task =
          task.enter (.failing error code)) := by
  simp only [Task.startAttempt]
  split
  · next spent =>
    refine .inr ⟨by linarith, _, _, ?_, rfl⟩
    rfl
  · next left =>
    refine .inl ⟨by linarith, _, ?_, rfl⟩
    split
    · exact .inr rfl
    · exact .inl rfl

/-- What a resumption of the loop does to its task, and what it shows. -/
inductive Resumption (config : Config) (loop : RetryLoop) (clock : Clock) :
    RetryEvent → Task → Prop where
  | invoked (suspended : loop.task.phase = .incrementing origin)
      (reply : loop.task.answer = some (.ok (.run durable)))
      (left : clock.monotonic - origin < config.retryBudget.maxElapsedSeconds)
      (begins : phase = .calling (firstAttempt origin durable) ∨
        phase = .streaming (firstAttempt origin durable)) :
      Resumption config loop clock (.invoked clock.monotonic) (loop.task.enter phase)
  | expired (suspended : loop.task.phase = .incrementing origin)
      (reply : loop.task.answer = some (.ok (.run durable)))
      (spent : config.retryBudget.maxElapsedSeconds ≤ clock.monotonic - origin)
      (error : PyException) (code : String) :
      Resumption config loop clock (.expired clock.monotonic)
        (loop.task.enter (.failing error code))
  | failed (during : loop.task.phase.attempt = some attempt) (error : PyException) :
      Resumption config loop clock
        (.failed error (loop.delay config clock
          (loop.task.attemptFailed config attempt error clock).task))
        (loop.task.attemptFailed config attempt error clock).task
  | returned (during : loop.task.phase.attempt = some attempt) (result : AgentResult) :
      Resumption config loop clock .returned (loop.task.checkOutput config result)
  | emitted (suspended : loop.task.phase = .streaming attempt) (event : ProviderStreamEvent)
      (delta : String) : Resumption config loop clock (.emitted delta)
        (loop.task.enter (.persisting { attempt with emittedDelta := true } event delta))
  | received (suspended : loop.task.phase = .streaming attempt) (event : ProviderStreamEvent) :
      Resumption config loop clock .received (loop.task.afterEvent attempt event)
  | persisted (suspended : loop.task.phase = .persisting attempt event delta)
      (reply : loop.task.answer = some (.ok value)) :
      Resumption config loop clock .persisted (loop.task.afterEvent attempt event)
  | woke (suspended : loop.task.phase = .sleeping origin) (awake : loop.task.answer = none) :
      Resumption config loop clock .woke (loop.task.enter (.incrementing origin))

/-- The answers that a task in the loop can find. -/
structure Answerable (task : Task) : Prop where
  counted : task.phase = .incrementing origin → task.answer = some reply →
    ∃ durable : AgentRun, reply = .ok (.run durable)
  appended : task.phase = .persisting attempt event delta → task.answer = some reply →
    ∃ value, reply = .ok value
  awake : task.phase = .sleeping origin → task.answer = none

section Resumptions

variable {input : Input} {clock : Clock} {result : Resumed} {attempt : Attempt}

/-- The resumption of the loop is one of the eight kinds, with the event that it shows. -/
def Resumes (config : Config) (loop : RetryLoop) (input : Input) (clock : Clock)
    (task : Task) : Prop :=
  Resumption config loop clock
    (loop.observed config (loop.resumed config clock task) (.resume input clock)) task

theorem fails_resumes (during : loop.task.phase.attempt = some attempt) (error : PyException)
    (stops : carried loop.task input = none)
    (raises : failure attempt loop.task.answer input = some error) :
    Resumes config loop input clock
      (loop.task.attemptFailed config attempt error clock).task := by
  have shown : loop.observed config (loop.resumed config clock
      (loop.task.attemptFailed config attempt error clock).task) (.resume input clock) =
        .failed error (loop.delay config clock
          (loop.task.attemptFailed config attempt error clock).task) := by
    simp only [observed, stops, resumed, attemptFailed_attempt, during, raises,
      Option.isSome_none, Bool.false_eq_true, ↓reduceIte]
  rw [Resumes, shown]
  exact .failed during error

theorem returns_resumes (during : loop.task.phase.attempt = some attempt) (result : AgentResult)
    (stops : carried loop.task input = none)
    (raises : failure attempt loop.task.answer input = none) :
    Resumes config loop input clock (loop.task.checkOutput config result) := by
  have shown : loop.observed config (loop.resumed config clock
      (loop.task.checkOutput config result)) (.resume input clock) = .returned := by
    simp only [observed, stops, resumed,
      attempt_none (checkOutput_ended config loop.task result), during,
      raises, Option.isSome_none, Bool.false_eq_true, ↓reduceIte]
  rw [Resumes, shown]
  exact .returned during result

theorem incrementing_resumes (suspended : loop.task.phase = .incrementing origin)
    (reply : loop.task.answer = some (.ok (.run durable))) :
    Resumes config loop .wake clock
      (loop.task.startAttempt config origin durable clock).task := by
  have stops : carried loop.task .wake = none := by simp only [carried, suspended]
  rcases startAttempt_cases loop.task origin durable clock with
    ⟨left, phase, begins, entered⟩ | ⟨spent, error, code, exhausted, entered⟩
  · have runs : phase.attempt = some (firstAttempt origin durable) := by
      rcases begins with rfl | rfl <;> rfl
    rw [entered, Resumes]
    simp only [observed, stops, resumed, Task.enter, runs, Option.isSome_some, ↓reduceIte]
    exact .invoked suspended reply left begins
  · rw [entered, Resumes]
    simp only [observed, stops, resumed, Task.enter, suspended, Phase.attempt, Phase.raised,
      exhausted, Option.isSome_none, Bool.false_eq_true, ↓reduceIte]
    exact .expired suspended reply spent error code

private theorem calling_resumes (suspended : loop.task.phase = .calling attempt)
    (taken : loop.task.informed config input clock = some result) :
    Resumes config loop input clock result.task := by
  have during : loop.task.phase.attempt = some attempt := by rw [suspended]; rfl
  have stops : carried loop.task input = none := by simp only [carried, suspended]
  cases input with
  | response given =>
    cases given with
    | ok response =>
      simp only [Task.informed, suspended, Option.some.injEq] at taken
      subst taken
      exact returns_resumes during _ stops rfl
    | error refusal =>
      simp only [Task.informed, suspended, Option.some.injEq] at taken
      subst taken
      exact fails_resumes during _ stops rfl
  | timeout =>
    simp only [Task.informed, suspended, Option.some.injEq] at taken
    subst taken
    exact fails_resumes during _ stops rfl
  | _ => simp [Task.informed, suspended] at taken

private theorem streaming_resumes (suspended : loop.task.phase = .streaming attempt)
    (taken : loop.task.informed config input clock = some result) :
    Resumes config loop input clock result.task := by
  have during : loop.task.phase.attempt = some attempt := by rw [suspended]; rfl
  cases input with
  | event given =>
    cases given with
    | ok streamed =>
      cases streamed with
      | some item =>
        cases delta : item.delta with
        | some text =>
          simp only [Task.informed, suspended, delta, Option.some.injEq] at taken
          subst taken
          simp only [Resumes, observed, carried, suspended, delta]
          exact .emitted suspended item text
        | none =>
          simp only [Task.informed, suspended, delta, Option.some.injEq] at taken
          subst taken
          simp only [Resumes, observed, carried, suspended, delta]
          exact .received suspended item
      | none =>
        have stops : carried loop.task (.event (.ok none)) = none := by
          simp only [carried, suspended]
        cases final : attempt.finalResponse with
        | some response =>
          simp only [Task.informed, suspended, final, Option.some.injEq] at taken
          subst taken
          exact returns_resumes during _ stops (by simp [failure, final])
        | none =>
          simp only [Task.informed, suspended, final, Option.some.injEq] at taken
          subst taken
          exact fails_resumes during _ stops (by simp [failure, final])
    | error refusal =>
      simp only [Task.informed, suspended, Option.some.injEq] at taken
      subst taken
      exact fails_resumes during _ (by simp only [carried, suspended]) rfl
  | timeout =>
    simp only [Task.informed, suspended, Option.some.injEq] at taken
    subst taken
    exact fails_resumes during _ (by simp only [carried, suspended]) rfl
  | _ => simp [Task.informed, suspended] at taken

private theorem persisting_resumes (suspended : loop.task.phase = .persisting attempt event delta)
    (reply : loop.task.answer = some (.ok value)) :
    Resumes config loop .wake clock (loop.task.afterEvent attempt event) := by
  simp only [Resumes, observed, carried, suspended, reply]
  exact .persisted suspended reply

private theorem sleeping_resumes (suspended : loop.task.phase = .sleeping origin)
    (awake : loop.task.answer = none) :
    Resumes config loop .wake clock (loop.task.enter (.incrementing origin)) := by
  simp only [Resumes, observed, carried, suspended, resumed, Task.enter, Phase.attempt,
    Phase.raised, Option.isSome_none, Bool.false_eq_true, ↓reduceIte]
  exact .woke suspended awake

/-- Every resumption of a task in the loop is one of these. -/
theorem resume_cases (answerable : Answerable loop.task)
    (unsignalled : loop.task.cancelRequested = false) (retrying : loop.task.phase.Retrying)
    (taken : loop.task.resume config input clock = some result) :
    Resumes config loop input clock result.task := by
  simp only [Task.resume, unsignalled, Bool.false_eq_true, ↓reduceIte] at taken
  cases suspended : loop.task.phase <;> rw [suspended] at retrying <;> try contradiction
  case incrementing origin =>
    cases input with
    | wake =>
      cases reply : loop.task.answer with
      | none => simp [Task.informed, suspended, reply] at taken
      | some value =>
        obtain ⟨durable, rfl⟩ := answerable.counted suspended reply
        simp only [reply, Task.answered, suspended, Option.some.injEq] at taken
        subst taken
        exact incrementing_resumes suspended reply
    | _ => simp [Task.informed, suspended] at taken
  case calling attempt =>
    cases input with
    | wake => cases reply : loop.task.answer <;>
        simp [Task.informed, Task.answered, suspended, reply] at taken
    | _ => exact calling_resumes suspended taken
  case streaming attempt =>
    cases input with
    | wake => cases reply : loop.task.answer <;>
        simp [Task.informed, Task.answered, suspended, reply] at taken
    | _ => exact streaming_resumes suspended taken
  case persisting attempt event delta =>
    cases input with
    | wake =>
      cases reply : loop.task.answer with
      | none => simp [Task.informed, suspended, reply] at taken
      | some value =>
        obtain ⟨value, rfl⟩ := answerable.appended suspended reply
        simp only [reply, Task.answered, suspended, Option.some.injEq] at taken
        subst taken
        exact persisting_resumes suspended reply
    | timeout =>
      simp only [Task.informed, suspended, Option.some.injEq] at taken
      subst taken
      exact fails_resumes (by rw [suspended]; rfl) _ (by simp only [carried, suspended]) rfl
    | _ => simp [Task.informed, suspended] at taken
  case sleeping origin =>
    have awake := answerable.awake suspended
    cases input with
    | wake =>
      simp only [Task.informed, awake, suspended, Option.some.injEq] at taken
      subst taken
      exact sleeping_resumes suspended awake
    | _ => simp [Task.informed, suspended] at taken

end Resumptions

theorem stage_ended {task : Task} (ended : ¬ task.phase.Retrying) :
    Stage config started events task ↔
      events.countP RetryEvent.isCounted =
          events.countP RetryEvent.isInvoked + events.countP RetryEvent.isExpired ∧
        events.countP RetryEvent.isCounted ≤ config.retryBudget.maxAttempts ∧
        events.countP RetryEvent.isExpired ≤ 1 := by
  unfold Stage
  cases phase : task.phase <;> simp_all [Phase.Retrying]

theorem slack_ended {task : Task} (ended : ¬ task.phase.Retrying) : slack task = 0 := by
  unfold slack
  cases phase : task.phase <;> simp_all [Phase.Retrying]

theorem Stage.bounded {task : Task} (stage : Stage config started events task) :
    events.countP RetryEvent.isInvoked ≤ events.countP RetryEvent.isCounted ∧
      events.countP RetryEvent.isCounted ≤ config.retryBudget.maxAttempts := by
  have underway : ∀ {attempt}, Underway config started events attempt →
      events.countP RetryEvent.isInvoked ≤ events.countP RetryEvent.isCounted ∧
        events.countP RetryEvent.isCounted ≤ config.retryBudget.maxAttempts := fun during =>
    ⟨during.invoked.le, during.attemptCount ▸ during.within⟩
  unfold Stage at stage
  split at stage
  · have left := stage.1.left
    omega
  · have left := stage.1.left
    omega
  · have left := stage.1.left
    omega
  · exact underway stage
  · exact underway stage
  · exact underway stage.1
  · contradiction
  · omega

theorem Stage.answerable {task : Task} (stage : Stage config started events task) :
    Answerable task where
  counted suspended reply := by
    simp only [Stage, suspended, reply] at stage
    obtain ⟨_, _, durable, same, _⟩ := stage
    exact ⟨durable, same⟩
  appended suspended reply := by
    simp only [Stage, suspended, reply] at stage
    exact stage.2 _ rfl
  awake suspended := by
    cases reply : task.answer with
    | none => rfl
    | some value => simp [Stage, suspended, reply] at stage

/-- The stage of a loop that is inside an attempt. -/
theorem Stage.underway {task : Task} {attempt : Attempt}
    (stage : Stage config started events task) (during : task.phase.attempt = some attempt) :
    Underway config started events attempt := by
  cases suspended : task.phase <;> rw [suspended] at during <;> cases during
  · simpa only [Stage, suspended] using stage
  · simpa only [Stage, suspended] using stage
  · simp only [Stage, suspended] at stage
    exact stage.1

/-- The stage of a loop whose attempt has been counted and not yet been invoked. -/
theorem Stage.counted {task : Task} {durable : AgentRun}
    (stage : Stage config started events task) (suspended : task.phase = .incrementing origin)
    (reply : task.answer = some (.ok (.run durable))) :
    Between config started events origin ∧
      events.countP RetryEvent.isCounted = events.countP RetryEvent.isInvoked + 1 ∧
      durable.attemptCount = events.countP RetryEvent.isCounted := by
  simp only [Stage, suspended, reply] at stage
  obtain ⟨between, counted, _, same, attempts⟩ := stage
  cases same
  exact ⟨between, counted, attempts⟩

theorem slack_during {task : Task} {attempt : Attempt}
    (during : task.phase.attempt = some attempt) :
    2 ≤ slack task := by
  unfold slack
  cases suspended : task.phase <;> rw [suspended] at during <;> cases during
  case persisting => cases task.answer <;> simp

/-- An attempt goes on after an event that neither starts nor ends one. -/
theorem Underway.snoc {attempt later : Attempt} {event : RetryEvent}
    (underway : Underway config started events attempt)
    (neutral : event.isCounted = false ∧ event.isInvoked = false ∧ event.isExpired = false)
    (origin : later.started = attempt.started)
    (attemptCount : later.attemptCount = attempt.attemptCount)
    (calm : later.emittedDelta = false → attempt.emittedDelta = false ∧ event.Calm) :
    Underway config started (events ++ [event]) later where
  started := origin.trans underway.started
  attemptCount := by simp [attemptCount, underway.attemptCount, neutral]
  invoked := by simp [underway.invoked, neutral]
  within := attemptCount ▸ underway.within
  expired := by simp [underway.expired, neutral]
  calm silent := List.forall_mem_append.mpr
    ⟨underway.calm (calm silent).1, List.forall_mem_singleton.mpr (calm silent).2⟩

/-- A resumption without another increment. -/
theorem Budgeted.resumes (budgeted : loop.Budgeted config started events) (later : Task)
    (event : RetryEvent) (leaves : later.run = loop.task.run)
    (unsignalled : later.cancelRequested = false) (read : loop.due ≤ clock.monotonic)
    (uncounted : event.isCounted = false)
    (pause : event.delay = (loop.delay config clock later).getD 0)
    (bounded : 0 ≤ event.delay ∧ event.delay ≤ config.retryBudget.maxDelay)
    (budget : RetryEvent.slept events + event.delay < config.retryBudget.maxElapsedSeconds)
    (stage : Stage config started (events ++ [event]) later)
    (length : 1 + slack later ≤ slack loop.task + 3 * event.isStreamed.toNat) :
    (loop.resumed config clock later).Budgeted config started (events ++ [event]) where
  record := by
    obtain ⟨record, found, running, attempts⟩ := budgeted.record
    refine ⟨record, ?_, running, ?_⟩
    · rw [resumed, leaves]
      exact found
    · rw [attempts, List.countP_append]
      simp [uncounted]
  log := by
    rw [resumed, leaves]
    exact budgeted.log
  unsignalled := unsignalled
  time := by
    have before := budgeted.time
    simp only [RetryEvent.slept_append, RetryEvent.slept, resumed, add_zero, pause]
    linarith
  budget := by simpa [RetryEvent.slept_append, RetryEvent.slept] using budget
  delays := List.forall_mem_append.mpr
    ⟨budgeted.delays, List.forall_mem_singleton.mpr bounded⟩
  stage := stage
  length := by
    have before := budgeted.length
    have own : [event].countP RetryEvent.isOwn ≤ 1 := List.countP_le_length
    have streamed : [event].countP RetryEvent.isStreamed = event.isStreamed.toNat := by
      cases shown : event.isStreamed <;> simp [shown]
    simp only [List.countP_append, resumed, streamed]
    omega

/-- An attempt that fails is given up, or a delay within the budget follows. -/
theorem Budgeted.fails {attempt : Attempt} (budgeted : loop.Budgeted config started events)
    (during : loop.task.phase.attempt = some attempt) (read : loop.due ≤ clock.monotonic)
    (sampled : 0 ≤ clock.randomValue) (error : PyException) :
    (loop.resumed config clock (loop.task.attemptFailed config attempt error clock).task).Budgeted
      config started (events ++ [.failed error (loop.delay config clock
        (loop.task.attemptFailed config attempt error clock).task)]) := by
  have counts : ∀ delay, ∀ count : RetryEvent → Bool, count (.failed error delay) = false →
      (events ++ [RetryEvent.failed error delay]).countP count = events.countP count := by
    intro delay count none
    simp [none]
  have underway := budgeted.stage.underway during
  have spare := slack_during during
  rcases attemptFailed_cases loop.task attempt error clock with
    given | ⟨sleeps, retryable, silent, permitted⟩
  · generalize (loop.task.attemptFailed config attempt error clock).task = later at given ⊢
    have none : loop.delay config clock later = none := by
      unfold RetryLoop.delay
      have ended := given.ended
      cases phase : later.phase <;> simp_all [Phase.Retrying]
    rw [none]
    apply budgeted.resumes later _ given.run (given.unsignalled.trans budgeted.unsignalled) read rfl
    · rw [none]
      rfl
    · exact ⟨le_refl _, config.retryBudget.base.1.trans config.retryBudget.cap.1⟩
    · simpa [RetryEvent.delay] using budgeted.budget
    · rw [stage_ended given.ended, counts _ _ rfl, counts _ _ rfl, counts _ _ rfl,
        underway.invoked, underway.expired]
      exact ⟨rfl, underway.attemptCount ▸ underway.within, Nat.zero_le 1⟩
    · rw [slack_ended given.ended]
      omega
  · have pause : loop.delay config clock (loop.task.enter (.sleeping attempt.started)) =
        some (config.retryBudget.delayAfter attempt.attemptCount clock.randomValue) := by
      unfold RetryLoop.delay
      rw [during]
      rfl
    simp only [RetryBudget.permitsRetry, decide_eq_true_eq] at permitted
    rw [sleeps, pause]
    apply budgeted.resumes (loop.task.enter (.sleeping attempt.started)) _ rfl
      budgeted.unsignalled read rfl
    · rw [pause]
      rfl
    · exact ⟨config.retryBudget.delayAfter_nonneg _ sampled, config.retryBudget.delayAfter_le _ _⟩
    · have elapsed := budgeted.time
      have within := permitted.2
      rw [underway.started] at within
      simp only [RetryEvent.delay]
      linarith
    · refine ⟨⟨underway.started, ?_, ?_⟩, ?_⟩
      · exact List.forall_mem_append.mpr
          ⟨underway.calm silent, List.forall_mem_singleton.mpr retryable⟩
      · rw [counts _ _ rfl, underway.invoked, ← underway.attemptCount]
        exact permitted.1
      · rw [counts _ _ rfl, counts _ _ rfl, underway.invoked]
    · change 1 + 1 ≤ _
      omega

/-- The increment of an available store takes effect. -/
theorem Budgeted.counts (budgeted : loop.Budgeted config started events)
    (suspended : loop.task.phase = .incrementing origin) (asking : loop.task.answer = none)
    (ambient : Ambient) :
    (loop.answered (.incrementRunAttempt loop.task.run.id) ambient).Budgeted config started
      (events ++ [.counted]) := by
  obtain ⟨record, found, running, attempts⟩ := budgeted.record
  have reply : (Operation.incrementRunAttempt loop.task.run.id).perform ambient loop.store =
      (.ok (.run { record with attemptCount := record.attemptCount + 1 }),
        withUpdate loop.store loop.task.run.id
          { record with attemptCount := record.attemptCount + 1 }) := by
    rw [Operation.perform, wrap_apply]
    rcases incrementRunAttempt_cases loop.store loop.task.run.id with
      ⟨absent, _⟩ | ⟨run, present, terminal, _⟩ | ⟨run, present, _, answer⟩
    · rw [found] at absent
      contradiction
    · cases found.symm.trans present
      simp [AgentRun.Terminal, running, terminalRunStatuses] at terminal
    · cases found.symm.trans present
      rw [answer]
      rfl
  have stage := budgeted.stage
  simp only [Stage, suspended, asking] at stage
  obtain ⟨between, even⟩ := stage
  have length := budgeted.length
  simp only [slack, suspended, asking] at length
  rw [answered, reply]
  constructor
  · exact ⟨_, Dict.get?_set_self _ _ _, running, by simp [attempts, RetryEvent.isCounted]⟩
  · exact budgeted.log
  · exact budgeted.unsignalled
  · simpa [RetryEvent.slept_append, RetryEvent.slept, RetryEvent.delay] using budgeted.time
  · simpa [RetryEvent.slept_append, RetryEvent.slept, RetryEvent.delay] using budgeted.budget
  · exact List.forall_mem_append.mpr ⟨budgeted.delays, List.forall_mem_singleton.mpr
      ⟨le_refl _, config.retryBudget.base.1.trans config.retryBudget.cap.1⟩⟩
  · simp only [Stage, suspended]
    refine ⟨⟨between.started, ?_, ?_⟩, ?_, _, rfl, ?_⟩
    · exact List.forall_mem_append.mpr ⟨between.calm, List.forall_mem_singleton.mpr trivial⟩
    · simpa [RetryEvent.isInvoked] using between.left
    · simp [RetryEvent.isCounted, RetryEvent.isInvoked, even]
    · simp [attempts, RetryEvent.isCounted]
  · simp only [slack, suspended, List.countP_append, List.countP_singleton, RetryEvent.isOwn,
      RetryEvent.isCounted, RetryEvent.isStreamed, ↓reduceIte, Bool.false_eq_true]
    omega

/-- The append of an available store takes effect. -/
theorem Budgeted.persists (budgeted : loop.Budgeted config started events)
    (suspended : loop.task.phase = .persisting attempt event delta)
    (asking : loop.task.answer = none) (type : StreamEventType) (payload : JsonObject)
    (ambient : Ambient) :
    (loop.answered (.appendStreamEvent loop.task.run.id type payload) ambient).Budgeted config
      started (events ++ [.persisted]) := by
  obtain ⟨record, found, running, attempts⟩ := budgeted.record
  obtain ⟨log, read⟩ := Option.isSome_iff_exists.mp budgeted.log
  have reply : (Operation.appendStreamEvent loop.task.run.id type payload).perform ambient
      loop.store = (.ok (.event (nextEvent log loop.task.run.id type payload (ambient.uuid4 0)
        (ambient.utcNow 0))), withLog loop.store loop.task.run.id (log ++
          [nextEvent log loop.task.run.id type payload (ambient.uuid4 0) (ambient.utcNow 0)])) := by
    rw [Operation.perform, wrap_apply, appendStreamEvent,
      Command.bind_ok (runLocked_ok found), appendEventLocked_ok read]
    rfl
  have stage := budgeted.stage
  simp only [Stage, suspended, asking] at stage
  have length := budgeted.length
  simp only [slack, suspended, asking] at length
  have counts : ∀ count : RetryEvent → Bool, count .persisted = false →
      (events ++ [RetryEvent.persisted]).countP count = events.countP count := by
    intro count none
    simp [none]
  rw [answered, reply]
  constructor
  · exact ⟨record, found, running, by rw [counts _ rfl, attempts]⟩
  · change (Dict.get? (Dict.set _ _ _) _).isSome
    rw [Dict.get?_set_self]
    rfl
  · exact budgeted.unsignalled
  · simpa [RetryEvent.slept_append, RetryEvent.slept, RetryEvent.delay] using budgeted.time
  · simpa [RetryEvent.slept_append, RetryEvent.slept, RetryEvent.delay] using budgeted.budget
  · exact List.forall_mem_append.mpr ⟨budgeted.delays, List.forall_mem_singleton.mpr
      ⟨le_refl _, config.retryBudget.base.1.trans config.retryBudget.cap.1⟩⟩
  · simp only [Stage, suspended]
    exact ⟨stage.1.snoc ⟨rfl, rfl, rfl⟩ rfl rfl fun silent => ⟨silent, trivial⟩, by simp⟩
  · simp only [slack, suspended, List.countP_append, List.countP_singleton, RetryEvent.isOwn,
      RetryEvent.isCounted, RetryEvent.isStreamed, ↓reduceIte, Bool.false_eq_true]
    omega

theorem Budgeted.effect {after : RetryLoop} {ambient : Ambient}
    (budgeted : loop.Budgeted config started events)
    (taken : loop.next config (.effect ambient) = some after) :
    after.Budgeted config started (events ++ [loop.observed config after (.effect ambient)]) := by
  simp only [next] at taken
  split at taken
  · next operation asking asked =>
    split at taken
    · next retrying =>
      cases taken
      cases suspended : loop.task.phase <;> rw [suspended] at retrying <;> try contradiction
      all_goals
        simp only [Task.operation, suspended, Option.some.injEq, reduceCtorEq] at asked
      case incrementing origin =>
        subst asked
        rw [show loop.observed config _ (.effect ambient) = .counted by
          simp only [observed, suspended]]
        exact budgeted.counts suspended asking ambient
      case persisting attempt event delta =>
        subst asked
        rw [show loop.observed config _ (.effect ambient) = .persisted by
          simp only [observed, suspended]]
        exact budgeted.persists suspended asking _ _ ambient
    · contradiction
  · contradiction

private theorem delay_none {task : Task} (awake : ∀ origin, task.phase ≠ .sleeping origin) :
    loop.delay config clock task = none := by
  unfold delay
  split
  · next sleeps => exact absurd sleeps (awake _)
  · rfl

theorem Between.unexpired (between : Between config started events origin) :
    events.countP RetryEvent.isExpired = 0 := by
  rw [List.countP_eq_zero]
  intro event member expired
  have calm := between.calm event member
  cases event <;> simp_all [RetryEvent.isExpired, RetryEvent.Calm]

/-- A resumption that neither counts an attempt nor is slept after. -/
theorem Budgeted.proceeds {event : RetryEvent} {phase : Phase}
    (budgeted : loop.Budgeted config started events) (read : loop.due ≤ clock.monotonic)
    (plain : event.isCounted = false ∧ event.delay = 0)
    (awake : ∀ origin, phase ≠ .sleeping origin)
    (stage : Stage config started (events ++ [event]) (loop.task.enter phase))
    (length : 1 + slack (loop.task.enter phase) ≤ slack loop.task + 3 * event.isStreamed.toNat) :
    (loop.resumed config clock (loop.task.enter phase)).Budgeted config started
      (events ++ [event]) := by
  apply budgeted.resumes (loop.task.enter phase) _ rfl budgeted.unsignalled read plain.1
  · rw [delay_none awake, plain.2]
    rfl
  · rw [plain.2]
    exact ⟨le_refl _, config.retryBudget.base.1.trans config.retryBudget.cap.1⟩
  · rw [plain.2, add_zero]
    exact budgeted.budget
  · exact stage
  · exact length

/-- A counted attempt is invoked. -/
theorem Budgeted.invokes {durable : AgentRun} (budgeted : loop.Budgeted config started events)
    (suspended : loop.task.phase = .incrementing origin)
    (reply : loop.task.answer = some (.ok (.run durable))) (read : loop.due ≤ clock.monotonic)
    (begins : phase = .calling (firstAttempt origin durable) ∨
      phase = .streaming (firstAttempt origin durable)) :
    (loop.resumed config clock (loop.task.enter phase)).Budgeted config started
      (events ++ [.invoked clock.monotonic]) := by
  obtain ⟨between, counted, attempts⟩ := budgeted.stage.counted suspended reply
  have unexpired := between.unexpired
  have left := between.left
  have underway : Underway config started (events ++ [.invoked clock.monotonic])
      (firstAttempt origin durable) := by
    constructor
    · exact between.started
    · simpa [firstAttempt, RetryEvent.isCounted] using attempts
    · simp [RetryEvent.isCounted, RetryEvent.isInvoked, counted]
    · simp only [firstAttempt, attempts]
      omega
    · simpa [RetryEvent.isExpired] using unexpired
    · exact fun _ => List.forall_mem_append.mpr
        ⟨between.calm, List.forall_mem_singleton.mpr trivial⟩
  have spare : slack loop.task = 3 := by simp only [slack, suspended, reply]
  apply budgeted.proceeds read ⟨rfl, rfl⟩
  · rcases begins with rfl | rfl <;> simp
  · rcases begins with rfl | rfl <;> exact underway
  · rw [spare]
    rcases begins with rfl | rfl <;> simp [slack, Task.enter]

/-- A counted attempt is given up when the time is spent. -/
theorem Budgeted.expires {durable : AgentRun} (budgeted : loop.Budgeted config started events)
    (suspended : loop.task.phase = .incrementing origin)
    (reply : loop.task.answer = some (.ok (.run durable))) (read : loop.due ≤ clock.monotonic)
    (error : PyException) (code : String) :
    (loop.resumed config clock (loop.task.enter (.failing error code))).Budgeted config started
      (events ++ [.expired clock.monotonic]) := by
  obtain ⟨between, counted, attempts⟩ := budgeted.stage.counted suspended reply
  have unexpired := between.unexpired
  have left := between.left
  have spare : slack loop.task = 3 := by simp only [slack, suspended, reply]
  apply budgeted.proceeds read ⟨rfl, rfl⟩ (by simp)
  · refine (stage_ended id).mpr ?_
    simp only [List.countP_append, List.countP_singleton, RetryEvent.isCounted,
      RetryEvent.isInvoked, RetryEvent.isExpired, ↓reduceIte, Bool.false_eq_true]
    omega
  · rw [spare, slack_ended id]
    omega

private theorem Budgeted.returns {attempt : Attempt}
    (budgeted : loop.Budgeted config started events)
    (during : loop.task.phase.attempt = some attempt) (read : loop.due ≤ clock.monotonic)
    (result : AgentResult) :
    (loop.resumed config clock (loop.task.checkOutput config result)).Budgeted config started
      (events ++ [.returned]) := by
  have ended := checkOutput_ended config loop.task result
  have underway := budgeted.stage.underway during
  have spare := slack_during during
  unfold Task.checkOutput Task.guarded at ended ⊢
  apply budgeted.proceeds read ⟨rfl, rfl⟩
  · intro origin sleeps
    rw [sleeps] at ended
    exact ended trivial
  · rw [stage_ended ended]
    have counted := underway.invoked
    have unexpired := underway.expired
    have within := underway.attemptCount ▸ underway.within
    simp only [List.countP_append, List.countP_singleton, RetryEvent.isCounted,
      RetryEvent.isInvoked, RetryEvent.isExpired, ↓reduceIte, Bool.false_eq_true]
    omega
  · rw [slack_ended ended]
    omega

/-- The provider streams on. -/
theorem Budgeted.streams {later : Attempt} {event : RetryEvent}
    (budgeted : loop.Budgeted config started events) (read : loop.due ≤ clock.monotonic)
    (plain : event.isCounted = false ∧ event.delay = 0)
    (underway : Underway config started (events ++ [event]) later)
    (spare : 3 ≤ slack loop.task + 3 * event.isStreamed.toNat) (item : ProviderStreamEvent) :
    (loop.resumed config clock (loop.task.afterEvent later item)).Budgeted config started
      (events ++ [event]) := by
  apply budgeted.proceeds read plain (by simp)
  · split
    · exact ⟨underway.started, underway.attemptCount, underway.invoked, underway.within,
        underway.expired, underway.calm⟩
    · exact underway
  · exact spare

/-- A sleep is over. -/
theorem Budgeted.wakes (budgeted : loop.Budgeted config started events)
    (suspended : loop.task.phase = .sleeping origin) (awake : loop.task.answer = none)
    (read : loop.due ≤ clock.monotonic) :
    (loop.resumed config clock (loop.task.enter (.incrementing origin))).Budgeted config started
      (events ++ [.woke]) := by
  have stage := budgeted.stage
  simp only [Stage, suspended, awake] at stage
  obtain ⟨between, even⟩ := stage
  have spare : slack loop.task = 1 := by simp only [slack, suspended]
  apply budgeted.proceeds read ⟨rfl, rfl⟩ (by simp)
  · refine ⟨⟨between.started, ?_, ?_⟩, ?_⟩
    · exact List.forall_mem_append.mpr ⟨between.calm, List.forall_mem_singleton.mpr trivial⟩
    · simpa [RetryEvent.isInvoked] using between.left
    · simpa [RetryEvent.isInvoked, RetryEvent.isCounted] using even
  · rw [spare]
    exact le_refl 1

/-- Every kind of resumption keeps the invariant. -/
theorem Resumption.budgeted (resumption : Resumption config loop clock event later)
    (budgeted : loop.Budgeted config started events) (read : loop.due ≤ clock.monotonic)
    (sampled : 0 ≤ clock.randomValue) :
    (loop.resumed config clock later).Budgeted config started (events ++ [event]) := by
  cases resumption with
  | invoked suspended reply _ begins => exact budgeted.invokes suspended reply read begins
  | expired suspended reply => exact budgeted.expires suspended reply read _ _
  | failed during error => exact budgeted.fails during read sampled error
  | returned during result => exact budgeted.returns during read result
  | @emitted attempt suspended item delta =>
    have underway := budgeted.stage.underway (by rw [suspended]; rfl)
    apply budgeted.proceeds read ⟨rfl, rfl⟩ (by simp)
    · exact ⟨underway.snoc ⟨rfl, rfl, rfl⟩ rfl rfl (by simp), by simp [Task.enter]⟩
    · simp only [slack, Task.enter, RetryEvent.isStreamed, suspended]
      decide
  | received suspended item =>
    have underway := budgeted.stage.underway (by rw [suspended]; rfl)
    refine budgeted.streams read ⟨rfl, rfl⟩ ?_ ?_ item
    · exact underway.snoc ⟨rfl, rfl, rfl⟩ rfl rfl fun silent => ⟨silent, trivial⟩
    · simp only [slack, suspended]
      decide
  | persisted suspended reply =>
    have underway := budgeted.stage.underway (by rw [suspended]; rfl)
    refine budgeted.streams read ⟨rfl, rfl⟩ ?_ ?_ _
    · exact underway.snoc ⟨rfl, rfl, rfl⟩ rfl rfl fun silent => ⟨silent, trivial⟩
    · simp only [slack, suspended, reply]
      decide
  | woke suspended awake => exact budgeted.wakes suspended awake read

/-- A resumption of a loop that keeps its invariant is one of the kinds. -/
theorem Budgeted.resumption {after : RetryLoop} {input : Input} {clock : Clock}
    (budgeted : loop.Budgeted config started events)
    (taken : loop.next config (.resume input clock) = some after) :
    loop.due ≤ clock.monotonic ∧ 0 ≤ clock.randomValue ∧
      ∃ later, after = loop.resumed config clock later ∧
        Resumption config loop clock (loop.observed config after (.resume input clock)) later := by
  simp only [next] at taken
  split at taken
  · next admitted =>
    obtain ⟨retrying, read, sampled, _⟩ := admitted
    obtain ⟨result, resumed, rfl⟩ := Option.map_eq_some_iff.mp taken
    exact ⟨read, sampled, result.task, rfl,
      resume_cases budgeted.stage.answerable budgeted.unsignalled retrying resumed⟩
  · contradiction

/-- A change elsewhere in the store. -/
theorem Budgeted.elsewhere (budgeted : loop.Budgeted config started events)
    (store : InMemorySessionStore)
    (run : store.runs.get? loop.task.run.id = loop.store.runs.get? loop.task.run.id)
    (log : store.events.get? loop.task.run.id = loop.store.events.get? loop.task.run.id) :
    Budgeted config { loop with store } started (events ++ [.elsewhere]) := by
  have counts : ∀ count : RetryEvent → Bool, count .elsewhere = false →
      (events ++ [RetryEvent.elsewhere]).countP count = events.countP count := by
    intro count none
    simp [none]
  have slept : RetryEvent.slept (events ++ [.elsewhere]) = RetryEvent.slept events := by
    simp [RetryEvent.slept_append, RetryEvent.slept, RetryEvent.delay]
  have calm : ∀ {event : RetryEvent → Prop}, event .elsewhere → (∀ other ∈ events, event other) →
      ∀ other ∈ events ++ [.elsewhere], event other := fun last earlier =>
    List.forall_mem_append.mpr ⟨earlier, List.forall_mem_singleton.mpr last⟩
  have between : ∀ {origin}, Between config started events origin →
      Between config started (events ++ [.elsewhere]) origin := fun earlier =>
    ⟨earlier.started, calm trivial earlier.calm, by rw [counts _ rfl]; exact earlier.left⟩
  have underway : ∀ {attempt}, Underway config started events attempt →
      Underway config started (events ++ [.elsewhere]) attempt := fun earlier =>
    earlier.snoc ⟨rfl, rfl, rfl⟩ rfl rfl fun silent => ⟨silent, trivial⟩
  constructor
  · obtain ⟨record, found, running, attempts⟩ := budgeted.record
    exact ⟨record, run.trans found, running, by rw [counts _ rfl, attempts]⟩
  · exact log ▸ budgeted.log
  · exact budgeted.unsignalled
  · rw [slept]
    exact budgeted.time
  · rw [slept]
    exact budgeted.budget
  · exact calm ⟨le_refl _, config.retryBudget.base.1.trans config.retryBudget.cap.1⟩
      budgeted.delays
  · have stage := budgeted.stage
    unfold Stage at stage ⊢
    simp only [counts RetryEvent.isCounted rfl, counts RetryEvent.isInvoked rfl,
      counts RetryEvent.isExpired rfl]
    split at stage
    · exact ⟨between stage.1, stage.2⟩
    · exact ⟨between stage.1, stage.2⟩
    · exact ⟨between stage.1, stage.2⟩
    · exact underway stage
    · exact underway stage
    · exact ⟨underway stage.1, stage.2⟩
    · contradiction
    · exact stage
  · rw [counts _ rfl, counts _ rfl, counts _ rfl]
    exact budgeted.length

private theorem Steps.budgeted (taken : Steps config loop event after)
    (budgeted : loop.Budgeted config started events) :
    after.Budgeted config started (events ++ [event]) := by
  cases taken with
  | own move taken =>
    cases move with
    | effect ambient => exact budgeted.effect taken
    | resume input clock =>
      obtain ⟨read, sampled, later, rfl, resumption⟩ := budgeted.resumption taken
      exact resumption.budgeted budgeted read sampled
  | elsewhere store run log => exact budgeted.elsewhere store run log

/-- The loop as it is entered, over a store in which the run is running and not yet counted. -/
structure Enters (started : ℚ) : Prop where
  suspended : loop.task.phase = .incrementing started
  asking : loop.task.answer = none
  unsignalled : loop.task.cancelRequested = false
  due : started ≤ loop.due
  record : ∃ record, loop.store.runs.get? loop.task.run.id = some record ∧
    record.status = .running ∧ record.attemptCount = 0
  log : (loop.store.events.get? loop.task.run.id).isSome

private theorem Enters.budgeted (enters : loop.Enters started) : loop.Budgeted config started
    [] where
  record := enters.record
  log := enters.log
  unsignalled := enters.unsignalled
  time := by simpa [RetryEvent.slept] using enters.due
  budget := config.retryBudget.elapsed.1
  delays := by simp
  stage := by
    simp only [Stage, enters.suspended, enters.asking]
    exact ⟨⟨rfl, by simp, config.retryBudget.attempts.1⟩, rfl⟩
  length := by simp [slack, enters.suspended, enters.asking]

theorem run_budgeted (enters : loop.Enters started)
    (run : Run (Steps config) loop events after) : after.Budgeted config started events := by
  induction run with
  | nil => exact enters.budgeted
  | snoc earlier last ih => exact last.budgeted ih

/-- Steps that show a clock reading are resumptions after a counted attempt. -/
theorem Steps.counted (taken : Steps config loop event after)
    (budgeted : loop.Budgeted config started events)
    (reads : event = .invoked now ∨ event = .expired now) :
    ∃ clock later, now = clock.monotonic ∧ Resumption config loop clock event later := by
  cases taken with
  | own move taken =>
    cases move with
    | effect ambient =>
      simp only [observed] at reads
      split at reads <;> rcases reads with reads | reads <;> contradiction
    | resume input clock =>
      obtain ⟨_, _, later, _, resumption⟩ := budgeted.resumption taken
      refine ⟨clock, later, ?_, resumption⟩
      generalize loop.observed config after (.resume input clock) = event at *
      cases resumption <;> rcases reads with reads | reads <;> cases reads <;> rfl
  | elsewhere store run log => rcases reads with reads | reads <;> contradiction

/-- An invocation follows its own increment, in time and after nothing final. -/
theorem Steps.invoked (taken : Steps config loop (.invoked now) after)
    (budgeted : loop.Budgeted config started events) :
    events.countP RetryEvent.isCounted = events.countP RetryEvent.isInvoked + 1 ∧
      now - started < config.retryBudget.maxElapsedSeconds ∧ ∀ event ∈ events, event.Calm := by
  obtain ⟨clock, later, rfl, resumption⟩ := taken.counted budgeted (.inl rfl)
  cases resumption with
  | invoked suspended reply left =>
    obtain ⟨between, counted, _⟩ := budgeted.stage.counted suspended reply
    exact ⟨counted, between.started ▸ left, between.calm⟩

/-- A counted attempt is not invoked only when its time is spent. -/
theorem Steps.expired (taken : Steps config loop (.expired now) after)
    (budgeted : loop.Budgeted config started events) :
    events.countP RetryEvent.isCounted = events.countP RetryEvent.isInvoked + 1 ∧
      config.retryBudget.maxElapsedSeconds ≤ now - started := by
  obtain ⟨clock, later, rfl, resumption⟩ := taken.counted budgeted (.inr rfl)
  cases resumption with
  | expired suspended reply spent =>
    obtain ⟨between, counted, _⟩ := budgeted.stage.counted suspended reply
    exact ⟨counted, between.started ▸ spent⟩

private theorem observed_own {after : RetryLoop} (move : RetryMove) :
    (loop.observed config after move).isOwn = true := by
  unfold observed
  split
  · split <;> rfl
  · split
    · next event carries =>
      unfold carried at carries
      split at carries
      · split at carries <;> cases carries <;> rfl
      · cases carries
        rfl
      · contradiction
    · split
      · rfl
      · split
        · split <;> rfl
        · split <;> rfl
        · rfl

/-- The loop is never stuck: its store call takes effect, or it can be resumed. -/
theorem Budgeted.progress (budgeted : loop.Budgeted config started events)
    (retrying : loop.task.phase.Retrying) :
    ∃ event after, event.isOwn = true ∧ Steps config loop event after := by
  have moves : ∀ {move after}, loop.next config move = some after →
      ∃ event after, event.isOwn = true ∧ Steps config loop event after :=
    fun taken => ⟨_, _, observed_own _, .own _ taken⟩
  have effects : ∀ {operation}, loop.task.answer = none →
      loop.task.operation config = some operation →
      ∃ event after, event.isOwn = true ∧ Steps config loop event after := by
    intro operation asking asked
    have taken : loop.next config (.effect (.sample "" "")) =
        some (loop.answered operation (.sample "" "")) := by
      simp only [next, asking, asked, retrying, ↓reduceIte]
    exact moves taken
  have resumes : ∀ {input result}, loop.task.resume config input ⟨loop.due, 0, 0⟩ = some result →
      ∃ event after, event.isOwn = true ∧ Steps config loop event after := by
    intro input result resumed
    have taken : loop.next config (.resume input ⟨loop.due, 0, 0⟩) =
        some (loop.resumed config ⟨loop.due, 0, 0⟩ result.task) := by
      simp [next, retrying, resumed]
    exact moves taken
  have stage := budgeted.stage
  cases suspended : loop.task.phase <;> rw [suspended] at retrying <;> try contradiction
  case incrementing origin =>
    cases reply : loop.task.answer with
    | none => exact effects reply (by simp only [Task.operation, suspended]; rfl)
    | some value =>
      simp only [Stage, suspended, reply] at stage
      obtain ⟨_, _, durable, rfl, _⟩ := stage
      have resumed : loop.task.resume config .wake ⟨loop.due, 0, 0⟩ =
          some (loop.task.startAttempt config origin durable ⟨loop.due, 0, 0⟩) := by
        simp [Task.resume, budgeted.unsignalled, reply, Task.answered, suspended]
      exact resumes resumed
  case calling attempt =>
    have resumed : loop.task.resume config .timeout ⟨loop.due, 0, 0⟩ =
        some (loop.task.attemptFailed config attempt timeoutError ⟨loop.due, 0, 0⟩) := by
      simp [Task.resume, budgeted.unsignalled, Task.informed, suspended]
    exact resumes resumed
  case streaming attempt =>
    have resumed : loop.task.resume config .timeout ⟨loop.due, 0, 0⟩ =
        some (loop.task.attemptFailed config attempt timeoutError ⟨loop.due, 0, 0⟩) := by
      simp [Task.resume, budgeted.unsignalled, Task.informed, suspended]
    exact resumes resumed
  case persisting attempt event delta =>
    have resumed : loop.task.resume config .timeout ⟨loop.due, 0, 0⟩ =
        some (loop.task.attemptFailed config attempt timeoutError ⟨loop.due, 0, 0⟩) := by
      simp [Task.resume, budgeted.unsignalled, Task.informed, suspended]
    exact resumes resumed
  case sleeping origin =>
    cases reply : loop.task.answer with
    | none =>
      have resumed : loop.task.resume config .wake ⟨loop.due, 0, 0⟩ =
          some { task := loop.task.enter (.incrementing origin) } := by
        simp [Task.resume, budgeted.unsignalled, reply, Task.informed, suspended]
      exact resumes resumed
    | some value => simp [Stage, suspended, reply] at stage

/-- The retry budget bounds every run of the loop. -/
theorem retry_budget_bounds (config : Config) (started : ℚ) (loop after : RetryLoop)
    (events : List RetryEvent) (enters : loop.Enters started)
    (run : Run (Steps config) loop events after) :
    (events.countP RetryEvent.isOwn ≤
        4 * config.retryBudget.maxAttempts + 3 * events.countP RetryEvent.isStreamed ∧
      (after.task.phase.Retrying →
        ∃ event later, event.isOwn = true ∧ Steps config after event later)) ∧
    events.countP RetryEvent.isInvoked ≤ config.retryBudget.maxAttempts ∧
    (∀ early now late, events = early ++ .invoked now :: late →
      early.countP RetryEvent.isCounted = early.countP RetryEvent.isInvoked + 1 ∧
        now - started < config.retryBudget.maxElapsedSeconds ∧ ∀ event ∈ early, event.Calm) ∧
    (∀ early now late, events = early ++ .expired now :: late →
      early.countP RetryEvent.isCounted = early.countP RetryEvent.isInvoked + 1 ∧
        config.retryBudget.maxElapsedSeconds ≤ now - started) ∧
    (∀ event ∈ events, 0 ≤ event.delay ∧ event.delay ≤ config.retryBudget.maxDelay) ∧
    RetryEvent.slept events < config.retryBudget.maxElapsedSeconds ∧
    (¬ after.task.phase.Retrying → ∃ record,
      after.store.runs.get? after.task.run.id = some record ∧
        record.attemptCount =
          events.countP RetryEvent.isInvoked + events.countP RetryEvent.isExpired ∧
        events.countP RetryEvent.isExpired ≤ 1) := by
  have budgeted := run_budgeted enters run
  have counted := budgeted.stage.bounded
  refine ⟨⟨?_, budgeted.progress⟩, ?_, ?_, ?_, budgeted.delays, budgeted.budget, ?_⟩
  · have length := budgeted.length
    omega
  · omega
  · rintro early now late rfl
    obtain ⟨earlier, later, before, taken, _⟩ := run.around
    exact taken.invoked (run_budgeted enters before)
  · rintro early now late rfl
    obtain ⟨earlier, later, before, taken, _⟩ := run.around
    exact taken.expired (run_budgeted enters before)
  · intro ended
    obtain ⟨record, found, _, attempts⟩ := budgeted.record
    obtain ⟨even, _, once⟩ := (stage_ended ended).mp budgeted.stage
    exact ⟨record, found, attempts.trans even, once⟩

end Steps

/-- A task that enters the loop over a store in which its run is running. -/
def sample : RetryLoop where
  store := (execute empty (DayuAgent.sampleTurn.take 3)).2
  task :=
    { run :=
        { pendingRun (.sample (some "lake") (some "key") "hash") "lake" (.sample "b" "run") with
          status := .running }
      context :=
        { requestId := "request", runId := some "run", traceId := "trace", sessionId := "lake"
          userId := none, agentName := "SupervisorAgent", metadata := [] }
      userContent := "level?", userMetadata := [], streams := false, started := 0, request := none
      phase := .incrementing 0, answer := none, cancelRequested := false }
  due := 0

/-- A time-out, a backoff and a second attempt that returns. -/
def sampleMoves : List RetryMove :=
  [.effect (.sample "x" "y"), .resume .wake ⟨0, 0, 0⟩, .resume .timeout ⟨1, 0, 0⟩,
   .resume .wake ⟨2, 0, 0⟩, .effect (.sample "x" "y"), .resume .wake ⟨2, 0, 0⟩,
   .resume (.response (.ok { content := "high", usage := .empty })) ⟨3, 0, 0⟩]

theorem retry_budget_bounds_sample : ∃ events after,
    Run (Steps (Fleet.sampleConfig "")) sample events after ∧
      events.countP RetryEvent.isInvoked + events.countP RetryEvent.isExpired = 2 ∧
      RetryEvent.slept events < 15 := by
  have reached : ∃ after, Run (fun loop move after =>
      next (Fleet.sampleConfig "") loop move = some after) sample sampleMoves after ∧
      (¬ after.task.phase.Retrying ∧
        ∃ record ∈ after.store.runs.get? after.task.run.id, record.attemptCount = 2) :=
    follow_reaches (by decide +kernel)
  obtain ⟨after, moved, ended, record, found, attempts⟩ := reached
  obtain ⟨events, run⟩ := moved.relabel fun taken => ⟨_, Steps.own _ taken⟩
  have enters : sample.Enters 0 := ⟨rfl, rfl, rfl, le_refl 0, ⟨_, rfl, rfl, rfl⟩, rfl⟩
  obtain ⟨_, _, _, _, _, slept, counts⟩ :=
    retry_budget_bounds (Fleet.sampleConfig "") 0 sample after events enters run
  obtain ⟨final, present, same, _⟩ := counts ended
  cases found.symm.trans present
  exact ⟨events, after, run, same.symm.trans attempts, slept⟩

end RetryLoop

end DayuAgent
