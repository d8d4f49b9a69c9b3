import DayuAgent.Memory.Terminal

namespace DayuAgent

open Library InMemorySessionStore

/-- A later record of the same run of the same worker. -/
structure Continues (run later : AgentRun) : Prop where
  sameId : later.id = run.id
  sameSession : later.sessionId = run.sessionId
  sameWorker : later.workerInstanceId = run.workerInstanceId
  settled : run.Terminal → later = run

namespace Continues

theorem refl (run : AgentRun) : Continues run run := ⟨rfl, rfl, rfl, fun _ => rfl⟩

theorem trans (first : Continues run middle) (second : Continues middle later) :
    Continues run later := by
  refine ⟨second.sameId.trans first.sameId, second.sameSession.trans first.sameSession,
    second.sameWorker.trans first.sameWorker, ?_⟩
  intro terminal
  obtain rfl := first.settled terminal
  exact second.settled terminal

theorem terminal (continues : Continues run later) (terminal : run.Terminal) : later.Terminal := by
  rw [continues.settled terminal]
  exact terminal

theorem wasActive (continues : Continues run later) (active : later.Active) : run.Active := by
  refine (active_or_terminal run.status).resolve_right fun terminal => ?_
  rw [continues.settled terminal] at active
  exact (not_active_iff_terminal _).mpr terminal active

end Continues

theorem Move.continues (move : Move run updated type payload)
    (own : updated.status = .running → run.workerInstanceId = updated.workerInstanceId) :
    Continues run updated := by
  have settled : run.Terminal → updated = run := fun terminal =>
    absurd move.active ((not_active_iff_terminal _).mpr terminal)
  cases move with
  | start => exact ⟨rfl, rfl, (own rfl).symm, settled⟩
  | fail | cancel | interrupt => exact ⟨rfl, rfl, rfl, settled⟩

/-- Marking a run as running is left to the worker that reserved it. -/
def Operation.Respects (operation : Operation) (store : InMemorySessionStore) : Prop :=
  match operation with
  | .markRunRunning ref workerInstanceId =>
    ∀ run, store.runs.get? ref = some run → run.workerInstanceId = workerInstanceId
  | _ => True

namespace InMemorySessionStore

variable {store after : InMemorySessionStore}

/-- Every run of the first store continues in the second. -/
structure Keeps (store after : InMemorySessionStore) : Prop where
  found : store.runs.get? ref = some run →
    ∃ later, after.runs.get? ref = some later ∧ Continues run later

theorem Keeps.refl (store : InMemorySessionStore) : Keeps store store :=
  ⟨fun found => ⟨_, found, .refl _⟩⟩

theorem Keeps.trans (first : Keeps store middle) (second : Keeps middle after) :
    Keeps store after := by
  refine ⟨fun found => ?_⟩
  obtain ⟨kept, read, continues⟩ := first.found found
  obtain ⟨later, present, further⟩ := second.found read
  exact ⟨later, present, continues.trans further⟩

theorem Keeps.terminal (keeps : Keeps store after)
    (settled : ∃ record, store.runs.get? ref = some record ∧ record.Terminal) :
    ∃ record, after.runs.get? ref = some record ∧ record.Terminal := by
  obtain ⟨record, found, terminal⟩ := settled
  obtain ⟨later, present, continues⟩ := keeps.found found
  exact ⟨later, present, continues.terminal terminal⟩

private theorem Keeps.of_runs (same : after.runs = store.runs) : Keeps store after :=
  ⟨fun {_ run} found => ⟨run, by rw [same, found], .refl run⟩⟩

private theorem Keeps.set (found : store.runs.get? ref = some run) (continues : Continues run later)
    (same : after.runs = store.runs.set ref later) : Keeps store after := by
  refine ⟨fun {other former} present => ?_⟩
  rw [same, Dict.get?_set]
  split
  · next own =>
    subst own
    rw [found] at present
    cases present
    exact ⟨later, rfl, continues⟩
  · exact ⟨former, present, .refl former⟩

end InMemorySessionStore

/-- The run is marked as running. -/
def Effect.Starts : Effect → Prop
  | .moved _ updated _ => updated.status = .running
  | _ => False

/-- One edit keeps every run; whoever starts one must be its worker. -/
theorem Edit.keeps (edit : Edit store effect after)
    (own : ∀ ref updated event, effect = .moved ref updated event → effect.Starts →
      ∀ run, store.runs.get? ref = some run → run.workerInstanceId = updated.workerInstanceId) :
    Keeps store after := by
  cases edit with
  | ready | openSession | say | clear | emit | prune => exact .of_runs rfl
  | reserve request sessionId ambient _ absent =>
    refine ⟨fun {ref run} found => ⟨run, ?_, .refl run⟩⟩
    refine (Dict.get?_set_ne _ _ ?_).trans found
    rintro rfl
    rw [show store.runs.get? (ambient.uuid4 1) = some run from found] at absent
    contradiction
  | attempt found active =>
    refine .set found ?_ rfl
    exact ⟨rfl, rfl, rfl, fun terminal => absurd active ((not_active_iff_terminal _).mpr terminal)⟩
  | move found read move =>
    exact .set found (move.continues fun starts => own _ _ _ rfl starts _ found) rfl
  | commit found running =>
    refine .set found ?_ rfl
    refine ⟨rfl, rfl, rfl, fun terminal => ?_⟩
    simp [AgentRun.Terminal, running, terminalRunStatuses] at terminal

/-- An edit that brings a run reserves it. -/
theorem Edit.arrives (edit : Edit store effect after) (absent : store.runs.get? ref = none)
    (present : after.runs.get? ref = some run) : effect = .reserved run ∧ run.id = ref := by
  have missing {own : String} {former updated : AgentRun}
      (found : store.runs.get? own = some former)
      (same : after.runs = store.runs.set own updated) : False := by
    rw [same, Dict.get?_set_ne, absent] at present
    · contradiction
    · rintro rfl
      rw [absent] at found
      contradiction
  cases edit with
  | ready | openSession | say | clear | emit | prune =>
    have nothing : store.runs.get? ref = some run := present
    rw [absent] at nothing
    contradiction
  | reserve request sessionId ambient =>
    have written : (store.runs.set (ambient.uuid4 1)
        (pendingRun request sessionId ambient)).get? ref = some run := present
    rw [Dict.get?_set] at written
    split at written
    · next own =>
      cases written
      exact ⟨rfl, own.symm⟩
    · rw [absent] at written
      contradiction
  | attempt found | move found | commit found => exact (missing found rfl).elim

/-- What marks a run as running marks this run alone. -/
theorem makes_starts (makes : Makes operation reply effects) (member : effect ∈ effects)
    (starts : effect.Starts) : ∃ ref workerInstanceId run event,
      operation = .markRunRunning ref workerInstanceId ∧ run.workerInstanceId = workerInstanceId ∧
        effects = [.moved ref run event] := by
  cases effect with
  | moved ref updated event =>
    have moves : operation.Moves ref := makes.origin member
    cases makes with
    | raised | read | replayed | settled | declined => cases member
    | started own running worker event => exact ⟨_, _, _, event, rfl, worker, rfl⟩
    | failed own status | cancelled own status =>
      cases List.mem_singleton.mp member
      rw [Effect.Starts, status] at starts
      contradiction
    | interrupted runs _ each | reconciled runs _ each =>
      obtain ⟨run, _, _, _, same⟩ := interrupts_mem each member
      cases same
      cases starts
    | _ => exact moves.elim
  | _ => exact starts.elim

namespace InMemorySessionStore

private theorem edits_keep (edits : Run Edit store effects after)
    (quiet : ∀ effect ∈ effects, ¬ effect.Starts) : Keeps store after := by
  induction edits with
  | nil => exact .refl store
  | @snoc effects middle effect after earlier last ih =>
    refine (ih fun other member => quiet other (List.mem_append_left _ member)).trans ?_
    exact last.keeps fun _ _ _ _ starts => (quiet effect (by simp) starts).elim

private theorem edits_absent (edits : Run Edit store effects after)
    (quiet : ∀ run, .reserved run ∉ effects) (absent : store.runs.get? ref = none) :
    after.runs.get? ref = none := by
  induction edits with
  | nil => exact absent
  | @snoc effects middle effect after earlier last ih =>
    have before := ih fun run member => quiet run (List.mem_append_left _ member)
    by_contra present
    obtain ⟨run, found⟩ := Option.ne_none_iff_exists'.mp present
    obtain ⟨rfl, _⟩ := last.arrives before found
    exact quiet run (by simp)

/-- An operation keeps every run. -/
theorem Refines.keeps (refines : Refines store operation reply after)
    (respects : operation.Respects store) : Keeps store after := by
  obtain ⟨effects, edits, makes⟩ := refines
  by_cases started : ∃ effect ∈ effects, effect.Starts
  · obtain ⟨effect, member, starts⟩ := started
    obtain ⟨ref, _, run, event, rfl, worker, rfl⟩ := makes_starts makes member starts
    refine edits.of_single.keeps ?_
    rintro _ _ _ ⟨⟩ _ former found
    exact (respects former found).trans worker.symm
  · exact edits_keep edits fun effect member starts => started ⟨effect, member, starts⟩

/-- Only a reservation brings a run that was not there. -/
theorem Refines.arrives (refines : Refines store operation reply after)
    (absent : store.runs.get? ref = none) (present : after.runs.get? ref = some run) :
    ∃ request, operation = .reserveRun request ∧
      run.workerInstanceId = request.workerInstanceId ∧ run.id = ref ∧
        reply = .ok (.reservation { run, ownsExecution := true }) := by
  obtain ⟨effects, edits, makes⟩ := refines
  have brings : ∃ other, .reserved other ∈ effects := by
    by_contra none
    have missing := edits_absent edits (fun other member => none ⟨other, member⟩) absent
    rw [missing] at present
    contradiction
  obtain ⟨other, member⟩ := brings
  obtain ⟨request, openings, rfl, _, worker, rfl, rfl, quiet⟩ := makes_reserved makes member
  obtain ⟨middle, earlier, last⟩ := edits.split
  obtain ⟨same, own⟩ := last.of_single.arrives (edits_absent earlier quiet absent) present
  cases same
  exact ⟨request, rfl, worker, own, rfl⟩

end InMemorySessionStore

end DayuAgent
