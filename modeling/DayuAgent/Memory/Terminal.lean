import DayuAgent.Memory.Reachable

namespace DayuAgent

open Library InMemorySessionStore

namespace InMemorySessionStore

/-- Writing one active run leaves a terminal record alone. -/
theorem terminal_set {store after : InMemorySessionStore} {run former updated : AgentRun}
    (found : store.runs.get? own = some former) (active : former.Active)
    (same : after.runs = store.runs.set own updated) (present : store.runs.get? ref = some run)
    (terminal : run.Terminal) : after.runs.get? ref = some run := by
  have different : ref ≠ own := by
    rintro rfl
    rw [found] at present
    cases present
    exact (not_active_iff_terminal _).mpr terminal active
  rw [same, Dict.get?_set_ne _ _ different, present]

end InMemorySessionStore

theorem Edit.terminal (edit : Edit store effect after) (found : store.runs.get? ref = some run)
    (terminal : run.Terminal) : after.runs.get? ref = some run := by
  cases edit with
  | ready | openSession | say | clear | emit | prune => exact found
  | reserve request own ambient opened absent =>
    have different : ref ≠ ambient.uuid4 1 := by
      rintro rfl
      rw [absent] at found
      contradiction
    exact (Dict.get?_set_ne _ _ different).trans found
  | attempt present active => exact terminal_set present active rfl found terminal
  | move present read change => exact terminal_set present change.active rfl found terminal
  | commit present running =>
    exact terminal_set present (by simp [AgentRun.Active, running, activeRunStatuses]) rfl
      found terminal

namespace InMemorySessionStore

theorem Answers.terminal (answers : Answers store call after) (coherent : Coherent store)
    (found : store.runs.get? ref = some run) (terminal : run.Terminal) :
    after.runs.get? ref = some run := by
  obtain ⟨effects, edits, _⟩ := answers.refines coherent
  exact edits.invariant found fun present edit => edit.terminal present terminal

theorem History.terminal (history : History store calls after) (coherent : Coherent store)
    (found : store.runs.get? ref = some run) (terminal : run.Terminal) :
    after.runs.get? ref = some run := by
  induction history with
  | nil => exact found
  | snoc earlier answers ih =>
    exact Answers.terminal answers (History.coherent earlier coherent) ih terminal

end InMemorySessionStore

/-- The status an operation tries to give to a run, if it is aimed at the run. -/
def Operation.target (operation : Operation) (run : AgentRun) : Option RunStatus :=
  match operation with
  | .commitRunSuccess ref _ => if ref = run.id then some .completed else none
  | .failRun ref _ => if ref = run.id then some .failed else none
  | .cancelRun ref workerInstanceId =>
    if ref = run.id ∧ run.workerInstanceId = workerInstanceId then some .cancelled else none
  | .interruptWorkerRuns workerInstanceId =>
    if run.workerInstanceId = workerInstanceId then some .interrupted else none
  | .reconcileOrphanedRuns workerInstanceId =>
    if run.workerInstanceId ≠ workerInstanceId then some .interrupted else none
  | _ => none

/-- The operation is one of the five that settle runs, applied to this one. -/
def Operation.Settling (operation : Operation) (ref : String) : Prop :=
  match operation with
  | .commitRunSuccess target _ | .failRun target _ | .cancelRun target _ => target = ref
  | .interruptWorkerRuns _ | .reconcileOrphanedRuns _ => True
  | _ => False

/-- The edit gives the run a terminal status. -/
def Effect.Settles (ref : String) : Effect → Prop
  | .moved own updated _ => own = ref ∧ updated.Terminal
  | .committed own _ => own = ref
  | _ => False

/-- A run becomes terminal by an edit that settles it. -/
theorem Edit.settles (edit : Edit store effect after)
    (unended : ∀ run, store.runs.get? ref = some run → ¬ run.Terminal)
    (present : after.runs.get? ref = some later) (terminal : later.Terminal) :
    effect.Settles ref := by
  have written {own : String} {updated : AgentRun}
      (same : after.runs = store.runs.set own updated) :
      own = ref ∧ updated = later := by
    rw [same, Dict.get?_set] at present
    split at present
    · next own =>
      cases present
      exact ⟨own.symm, rfl⟩
    · exact absurd terminal (unended later present)
  cases edit with
  | ready | openSession | say | clear | emit | prune =>
    exact absurd terminal (unended later present)
  | reserve =>
    obtain ⟨_, rfl⟩ := written rfl
    simp [AgentRun.Terminal, pendingRun, terminalRunStatuses] at terminal
  | attempt found active =>
    obtain ⟨_, rfl⟩ := written rfl
    exact absurd active ((not_active_iff_terminal _).mpr terminal)
  | move =>
    obtain ⟨own, rfl⟩ := written rfl
    exact ⟨own, terminal⟩
  | commit => exact (written rfl).1

private theorem edits_settle (edits : Run Edit store effects after)
    (unended : ∀ run, store.runs.get? ref = some run → ¬ run.Terminal)
    (present : after.runs.get? ref = some later) (terminal : later.Terminal) :
    ∃ effect ∈ effects, effect.Settles ref := by
  induction edits generalizing later with
  | nil => exact absurd terminal (unended later present)
  | @snoc effects middle effect after earlier last ih =>
    by_cases ended : ∃ run, middle.runs.get? ref = some run ∧ run.Terminal
    · obtain ⟨run, found, settled⟩ := ended
      obtain ⟨first, member, settles⟩ := ih found settled
      exact ⟨first, List.mem_append_left _ member, settles⟩
    · have open' : ∀ run, middle.runs.get? ref = some run → ¬ run.Terminal :=
        fun run found settled => ended ⟨run, found, settled⟩
      exact ⟨effect, by simp, last.settles open' present terminal⟩

private theorem makes_settles (makes : Makes operation reply effects) (member : effect ∈ effects)
    (settles : effect.Settles ref) : operation.Settling ref := by
  cases effect with
  | committed own request =>
    obtain rfl := makes.origin member
    exact settles
  | moved own updated event =>
    obtain ⟨rfl, terminal⟩ := settles
    have moves : operation.Moves own := makes.origin member
    cases makes with
    | raised | replayed | settled | declined => cases member
    | failed | cancelled | interrupted | reconciled => exact moves
    | started _ running =>
      cases List.mem_singleton.mp member
      simp [AgentRun.Terminal, running, terminalRunStatuses] at terminal
    | read => cases member
    | _ => exact moves.elim
  | _ => exact settles.elim

/-- An operation that ends a run is one of the five that settle runs, aimed at this one. -/
theorem InMemorySessionStore.Refines.settles (refines : Refines store operation reply after)
    (found : store.runs.get? ref = some run) (active : run.Active)
    (present : after.runs.get? ref = some later) (terminal : later.Terminal) :
    operation.Settling ref := by
  obtain ⟨effects, edits, makes⟩ := refines
  have unended : ∀ former, store.runs.get? ref = some former → ¬ former.Terminal := by
    rintro former read settled
    rw [found] at read
    cases read
    exact (not_active_iff_terminal _).mpr settled active
  obtain ⟨effect, member, settles⟩ := edits_settle edits unended present terminal
  exact makes_settles makes member settles

/-- The state machine lets the operation settle the run. -/
def Operation.Wins (operation : Operation) (run : AgentRun) : Prop :=
  ∃ target, operation.target run = some target ∧ target ∈ allowedRunTransitions run.status

def cancellationUnavailable (run : AgentRun) : PyException :=
  .of .cancellationUnavailableError
    [("run_id", .str run.id), ("worker_instance_id", .str run.workerInstanceId)]

/-- The answer of a settling operation that does not win. -/
def Operation.Declines (operation : Operation) (run : AgentRun) (reply : Except PyException Reply) :
    Prop :=
  match operation with
  | .commitRunSuccess .. => reply = .error (invalidTransition run.status .completed)
  | .failRun .. => reply = .ok (.run run)
  | .cancelRun .. =>
    (run.Terminal → reply = .ok (.cancel { run, disposition :=
      if run.status = .cancelled then .alreadyCancelled else .alreadyTerminal })) ∧
    (run.Active → reply = .error (cancellationUnavailable run))
  | .interruptWorkerRuns _ | .reconcileOrphanedRuns _ => ∃ count, reply = .ok (.count count)
  | _ => False

namespace InMemorySessionStore

/-- The run, its event log, and its session's transcript and record are as before. -/
structure Untouched (store after : InMemorySessionStore) (run : AgentRun) : Prop where
  record : after.runs.get? run.id = store.runs.get? run.id
  log : after.events.get? run.id = store.events.get? run.id
  transcript : after.messages.get? run.sessionId = store.messages.get? run.sessionId
  session : after.sessions.get? run.sessionId = store.sessions.get? run.sessionId

private theorem Untouched.refl (store : InMemorySessionStore) (run : AgentRun) :
    Untouched store store run := ⟨rfl, rfl, rfl, rfl⟩

/-- How one settling operation ends for one run. -/
structure Settled (store : InMemorySessionStore) (operation : Operation) (run : AgentRun)
    (reply : Except PyException Reply) (after : InMemorySessionStore) : Prop where
  wins : operation.Wins run → ∃ updated, after.runs.get? run.id = some updated ∧
    operation.target run = some updated.status ∧ updated.Terminal
  loses : ¬ operation.Wins run → Untouched store after run ∧ operation.Declines run reply

theorem terminal_loses {run : AgentRun} (terminal : run.Terminal) (operation : Operation) :
    ¬ operation.Wins run := by
  rintro ⟨target, _, allowed⟩
  exact terminal_no_transition terminal target allowed

theorem Settled.declined (loses : ¬ operation.Wins run)
    (declines : operation.Declines run reply) : Settled store operation run reply store :=
  ⟨fun wins => (loses wins).elim, fun _ => ⟨.refl store run, declines⟩⟩

theorem Settled.won (wins : operation.Wins run) (found : after.runs.get? run.id = some updated)
    (target : operation.target run = some updated.status) (terminal : updated.Terminal) :
    Settled store operation run reply after :=
  ⟨fun _ => ⟨updated, found, target, terminal⟩, fun loses => (loses wins).elim⟩

theorem target_wins {operation : Operation} {run : AgentRun}
    (change : Move run updated type payload)
    (target : operation.target run = some updated.status) : operation.Wins run :=
  ⟨updated.status, target, change.allowed⟩

variable {store : InMemorySessionStore}

private theorem commitRunSuccess_settled (coherent : Coherent store)
    (found : store.runs.get? run.id = some run) (request : CommitRunRequest) (ambient : Ambient)
    (answered : (Operation.commitRunSuccess run.id request).perform ambient store =
      (reply, after)) : Settled store (.commitRunSuccess run.id request) run reply after := by
  rcases commitRunSuccess_cases coherent run.id request ambient with
    ⟨absent, _⟩ | ⟨other, present, unfit, answer⟩ |
    ⟨other, record, history, log, present, _, running, _, _, _, _, answer⟩
  · rw [found] at absent
    contradiction
  · rw [found] at present
    cases present
    rw [Operation.perform, wrap_apply, answer] at answered
    cases answered
    refine .declined ?_ rfl
    rintro ⟨target, aimed, allowed⟩
    simp only [Operation.target, ↓reduceIte, Option.some.injEq] at aimed
    subst aimed
    cases status : run.status <;> simp_all [allowedRunTransitions]
  · rw [found] at present
    cases present
    rw [Operation.perform, wrap_apply, answer] at answered
    cases answered
    refine .won ⟨.completed, by simp [Operation.target], by simp [running, allowedRunTransitions]⟩
      (Dict.get?_set_self _ _ _) (by simp [Operation.target, completedRun]) ?_
    simp [AgentRun.Terminal, completedRun, terminalRunStatuses]

private theorem failRun_settled (coherent : Coherent store)
    (found : store.runs.get? run.id = some run)
    (errorCode : String) (ambient : Ambient)
    (answered : (Operation.failRun run.id errorCode).perform ambient store = (reply, after)) :
    Settled store (.failRun run.id errorCode) run reply after := by
  rcases failRun_cases coherent run.id errorCode ambient with
    ⟨absent, _⟩ | ⟨other, present, terminal, answer⟩ |
    ⟨other, updated, log, payload, present, _, _, move, _, answer⟩
  · rw [found] at absent
    contradiction
  · rw [found] at present
    cases present
    rw [Operation.perform, wrap_apply, answer] at answered
    cases answered
    exact .declined (terminal_loses terminal _) rfl
  · rw [found] at present
    cases present
    rw [Operation.perform, wrap_apply, answer] at answered
    cases answered
    have aimed : (Operation.failRun run.id errorCode).target run = some updated.status := by
      cases move
      simp [Operation.target]
    refine .won (target_wins move aimed) (Dict.get?_set_self _ _ _) aimed ?_
    cases move
    simp [AgentRun.Terminal, terminalRunStatuses]

theorem cancelRun_settled (coherent : Coherent store) (found : store.runs.get? run.id = some run)
    (workerInstanceId : String) (ambient : Ambient)
    (answered : (Operation.cancelRun run.id workerInstanceId).perform ambient store =
      (reply, after)) : Settled store (.cancelRun run.id workerInstanceId) run reply after := by
  rcases cancelRun_cases coherent run.id workerInstanceId ambient with
    ⟨absent, _⟩ | ⟨other, present, terminal, answer⟩ | ⟨other, present, active, foreign, answer⟩ |
    ⟨other, updated, log, payload, present, _, own, _, move, answer⟩
  · rw [found] at absent
    contradiction
  · rw [found] at present
    cases present
    rw [Operation.perform, wrap_apply, answer] at answered
    cases answered
    refine .declined (terminal_loses terminal _) ⟨fun _ => rfl, fun active => ?_⟩
    exact ((not_active_iff_terminal _).mpr terminal active).elim
  · rw [found] at present
    cases present
    rw [Operation.perform, wrap_apply, answer] at answered
    cases answered
    refine .declined ?_ ⟨fun terminal => ?_, fun _ => rfl⟩
    · rintro ⟨target, aimed, _⟩
      simp [Operation.target, foreign] at aimed
    · exact ((not_active_iff_terminal _).mpr terminal active).elim
  · rw [found] at present
    cases present
    rw [Operation.perform, wrap_apply, answer] at answered
    cases answered
    have aimed : (Operation.cancelRun run.id workerInstanceId).target run =
        some updated.status := by
      cases move
      simp [Operation.target, own]
    refine .won (target_wins move aimed) (Dict.get?_set_self _ _ _) aimed ?_
    cases move
    simp [AgentRun.Terminal, terminalRunStatuses]

/-- Both sweeps settle exactly the active runs that they select. -/
theorem interruptMatching_settled (coherent : Coherent store)
    (found : store.runs.get? run.id = some run) (selected : AgentRun → Bool) (ambient : Ambient)
    (aimed : operation.target run = if selected run then some .interrupted else none)
    (counts : ∀ count, operation.Declines run (.ok (.count count)))
    (answered : (do return .count (← interruptMatching selected ambient) : StoreM Reply) store =
      (reply, after)) : Settled store operation run reply after := by
  obtain ⟨swept, answer, summary⟩ := interruptMatching_ok coherent selected ambient
  rw [wrap_apply, answer] at answered
  cases answered
  by_cases hit : run ∈ matchingRuns store selected
  · obtain ⟨_, active, chosen⟩ := (mem_matchingRuns coherent selected run).mp hit
    obtain ⟨completed, log, eventId, created, changed, _, _⟩ := summary.hit hit
    rw [chosen] at aimed
    exact .won ⟨.interrupted, aimed, (Move.interrupt active completed).allowed⟩ changed aimed
      (by simp [AgentRun.Terminal, interruptedRun, terminalRunStatuses])
  · have others : ∀ other ∈ matchingRuns store selected, other.id ≠ run.id := by
      intro other member same
      obtain ⟨present, _⟩ := (mem_matchingRuns coherent selected other).mp member
      rw [same, found] at present
      cases present
      exact hit member
    obtain ⟨record, log⟩ := summary.skipped others
    refine ⟨?_, fun _ => ⟨⟨record, log, ?_, ?_⟩, counts _⟩⟩
    · rintro ⟨target, own, allowed⟩
      rw [aimed] at own
      split at own
      · next chosen =>
        exact (hit ((mem_matchingRuns coherent selected run).mpr
          ⟨found, allowed_from_active allowed, chosen⟩)).elim
      · contradiction
    · rw [summary.messages]
    · rw [summary.sessions]

private theorem Answers.settled (answers : Answers store call after) (coherent : Coherent store)
    (found : store.runs.get? run.id = some run) (settling : call.operation.Settling run.id) :
    Settled store call.operation run call.reply after := by
  obtain ⟨ambient, operation, reply⟩ := call
  obtain ⟨_, answered⟩ := answers
  cases operation with
  | commitRunSuccess ref request =>
    cases settling
    exact commitRunSuccess_settled coherent found request ambient answered
  | failRun ref errorCode =>
    cases settling
    exact failRun_settled coherent found errorCode ambient answered
  | cancelRun ref workerInstanceId =>
    cases settling
    exact cancelRun_settled coherent found workerInstanceId ambient answered
  | interruptWorkerRuns workerInstanceId | reconcileOrphanedRuns workerInstanceId =>
    exact interruptMatching_settled coherent found _ ambient (by simp [Operation.target])
      (fun count => ⟨count, rfl⟩) answered
  | _ => exact settling.elim

/-- Once a run is terminal no history changes its record. Every settling operation
either is allowed by the state machine and makes the run terminal, or answers with
what is stored and touches nothing of the run; after the first that changes the
run, all others do the latter. A foreign cancellation changes nothing at all. -/
theorem first_settlement_wins (reachable : Reachable store)
    (found : store.runs.get? ref = some run) :
    (run.Terminal → ∀ {calls after}, History store calls after →
      after.runs.get? ref = some run) ∧
    (∀ {call after}, Answers store call after → call.operation.Settling ref →
      Settled store call.operation run call.reply after) ∧
    (∀ {first changed middle later second last}, Answers store first changed →
      first.operation.Settling ref → changed.runs.get? ref ≠ some run →
      History changed middle later → Answers later second last →
      second.operation.Settling ref → ∃ settled, changed.runs.get? ref = some settled ∧
        later.runs.get? ref = some settled ∧ Untouched later last settled ∧
        second.operation.Declines settled second.reply) ∧
    (∀ {call after workerInstanceId}, Answers store call after → run.Active →
      run.workerInstanceId ≠ workerInstanceId →
      call.operation = .cancelRun ref workerInstanceId →
      call.reply = .error (cancellationUnavailable run) ∧ after = store) := by
  have coherent := reachable.coherent
  have same := coherent.runId found
  subst same
  refine ⟨fun terminal _ _ history => History.terminal history coherent found terminal,
    fun answers settling => Answers.settled answers coherent found settling, ?_, ?_⟩
  · intro first changed middle later second last answers settling different history again
      settlingAgain
    have outcome := Answers.settled answers coherent found settling
    have coherentChanged := Answers.coherent answers coherent
    by_cases wins : first.operation.Wins run
    · obtain ⟨settled, present, _, terminal⟩ := outcome.wins wins
      have kept := History.terminal history coherentChanged present terminal
      have coherentLater := History.coherent history coherentChanged
      have own := coherentLater.runId kept
      have declined := (Answers.settled again coherentLater (own ▸ kept)
        (own ▸ settlingAgain)).loses (terminal_loses terminal _)
      exact ⟨settled, present, kept, declined⟩
    · exact (different ((outcome.loses wins).1.record.trans found)).elim
  · rintro ⟨ambient, operation, reply⟩ after workerInstanceId ⟨_, answered⟩ active foreign rfl
    rcases cancelRun_cases coherent run.id workerInstanceId ambient with
      ⟨absent, _⟩ | ⟨other, present, terminal, _⟩ | ⟨other, present, _, _, answer⟩ |
      ⟨other, _, _, _, present, _, own, _⟩
    · rw [found] at absent
      contradiction
    · rw [found] at present
      cases present
      exact ((not_active_iff_terminal _).mpr terminal active).elim
    · rw [found] at present
      cases present
      dsimp only at answered ⊢
      rw [Operation.perform, wrap_apply, answer] at answered
      cases answered
      exact ⟨rfl, rfl⟩
    · rw [found] at present
      cases present
      exact (foreign own).elim

/-- Three attempts to settle the committed run of the sample turn again. -/
def sampleLate : List (Ambient × Operation) :=
  [(.sample "e" "e", .failRun "run" "PROVIDER_ERROR"),
   (.sample "f" "f", .cancelRun "run" "worker"),
   (.sample "g" "g", .interruptWorkerRuns "worker")]

theorem first_settlement_wins_sampleTurn :
    ∃ run, (execute empty sampleTurn).2.runs.get? "run" = some run ∧ run.status = .completed ∧
      (execute (execute empty sampleTurn).2 sampleLate).2.runs.get? "run" = some run :=
  ⟨_, rfl, rfl, (first_settlement_wins
    ⟨_, execute_history sampleTurn empty (by decide)⟩ rfl).1 (by decide)
    (execute_history sampleLate _ (by decide))⟩

end InMemorySessionStore

end DayuAgent
