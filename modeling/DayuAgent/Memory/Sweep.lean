import DayuAgent.Memory.Spec

namespace DayuAgent.InMemorySessionStore

open Library

variable {store : InMemorySessionStore}

/-- The store after one run of a sweep is interrupted. -/
def withInterrupt (store : InMemorySessionStore) (run : AgentRun) (log : List StreamEvent)
    (id : String) (completed created : Time) : InMemorySessionStore :=
  withLog (withUpdate store run.id (interruptedRun run completed)) run.id
    (log ++ [nextEvent log run.id .runInterrupted (statusPayload .interrupted) id created])

theorem interruptLocked_ok (active : run.Active) (read : store.events.get? run.id = some log)
    (eventId : String) (completed created : Time) :
    interruptLocked run eventId completed created store =
      (.ok (), withInterrupt store run log eventId completed created) := by
  simp only [interruptLocked, Command.bind_apply, Command.lift_apply]
  rw [validateRunTransition_ok (Move.interrupt active completed).allowed]
  exact putRun_publish read _ _ _ _ _ ()

theorem withInterrupt_edit (found : store.runs.get? run.id = some run) (active : run.Active)
    (read : store.events.get? run.id = some log) (eventId : String) (completed created : Time) :
    Edit store (.moved run.id (interruptedRun run completed)
        (nextEvent log run.id .runInterrupted (statusPayload .interrupted) eventId created))
      (withInterrupt store run log eventId completed created) :=
  .move found read (.interrupt active completed) eventId created

/-- The runs that a sweep goes through: stored, active and each of them once. -/
structure Collected (store : InMemorySessionStore) (matching : List AgentRun) : Prop where
  present : ∀ run ∈ matching, store.runs.get? run.id = some run ∧ run.Active
  distinct : (matching.map (·.id)).Nodup

namespace Collected

theorem head (collected : Collected store (run :: rest)) (coherent : Coherent store) : ∃ log,
    store.runs.get? run.id = some run ∧ run.Active ∧ store.events.get? run.id = some log := by
  obtain ⟨found, active⟩ := collected.present run List.mem_cons_self
  obtain ⟨log, read⟩ := coherent.logOf found
  exact ⟨log, found, active, read⟩

theorem different (collected : Collected store (run :: rest)) :
    ∀ other ∈ rest, other.id ≠ run.id := by
  intro other member same
  exact (List.nodup_cons.mp collected.distinct).1 (List.mem_map.mpr ⟨other, member, same⟩)

/-- The interruption of one run leaves the others to be interrupted. -/
theorem tail (collected : Collected store (run :: rest)) (log : List StreamEvent)
    (eventId : String) (completed created : Time) :
    Collected (withInterrupt store run log eventId completed created) rest where
  present other member := by
    obtain ⟨stored, active⟩ := collected.present other (List.mem_cons_of_mem _ member)
    have kept := Dict.get?_set_ne store.runs (interruptedRun run completed)
      (collected.different other member)
    exact ⟨kept.trans stored, active⟩
  distinct := (List.nodup_cons.mp collected.distinct).2

end Collected

/-- What a sweep over `matching` leaves: every run of the list is interrupted
with one more event, and everything else is as it was. -/
structure Interrupted (store : InMemorySessionStore) (matching : List AgentRun)
    (after : InMemorySessionStore) : Prop where
  edits : ∃ effects, Run Edit store effects after ∧
    List.Forall₂ Effect.Interrupts matching effects
  sessions : after.sessions = store.sessions
  messages : after.messages = store.messages
  idempotency : after.idempotency = store.idempotency
  skipped : (∀ run ∈ matching, run.id ≠ ref) →
    after.runs.get? ref = store.runs.get? ref ∧ after.events.get? ref = store.events.get? ref
  hit : run ∈ matching → ∃ completed log eventId created,
    after.runs.get? run.id = some (interruptedRun run completed) ∧
    store.events.get? run.id = some log ∧
    after.events.get? run.id = some (log ++
      [nextEvent log run.id .runInterrupted (statusPayload .interrupted) eventId created])

theorem interruptEach_ok (ambient : Ambient) (matching : List AgentRun) :
    ∀ (index : Nat) (store : InMemorySessionStore), Coherent store → Collected store matching →
      ∃ after, interruptEach ambient index matching store = (.ok (), after) ∧
        Interrupted store matching after := by
  induction matching with
  | nil =>
    intro index store _ _
    exact ⟨store, rfl, ⟨[], .nil, .nil⟩, rfl, rfl, rfl, fun _ => ⟨rfl, rfl⟩,
      fun member => by simp at member⟩
  | cons run rest ih =>
    intro index store coherent collected
    obtain ⟨log, found, active, read⟩ := collected.head coherent
    have different := collected.different
    have edit := withInterrupt_edit found active read (ambient.uuid4 index)
      (ambient.utcNow (2 * index)) (ambient.utcNow (2 * index + 1))
    have first := interruptLocked_ok active read (ambient.uuid4 index)
      (ambient.utcNow (2 * index)) (ambient.utcNow (2 * index + 1))
    have left := collected.tail log (ambient.uuid4 index) (ambient.utcNow (2 * index))
      (ambient.utcNow (2 * index + 1))
    generalize middle : withInterrupt store run log (ambient.uuid4 index)
        (ambient.utcNow (2 * index)) (ambient.utcNow (2 * index + 1)) = next at edit first left
    have frame : ∀ {ref}, ref ≠ run.id →
        next.runs.get? ref = store.runs.get? ref ∧
          next.events.get? ref = store.events.get? ref := by
      intro ref other
      subst middle
      simp [withInterrupt, withLog, withUpdate, Dict.get?_set, other]
    obtain ⟨after, swept, summary⟩ := ih (index + 1) next (edit.coherent coherent) left
    refine ⟨after, ?_, ?_⟩
    · rw [interruptEach, Command.bind_ok first, swept]
    · have own := @Interrupted.skipped _ _ _ summary run.id different
      obtain ⟨effects, run', each⟩ := summary.edits
      refine ⟨⟨_, .cons edit run', .cons ⟨_, _, rfl⟩ each⟩, ?_, ?_, ?_, ?_, ?_⟩
      · rw [summary.sessions, ← middle]; rfl
      · rw [summary.messages, ← middle]; rfl
      · rw [summary.idempotency, ← middle]; rfl
      · intro ref others
        have away := frame (others run (by simp)).symm
        have untouched := summary.skipped (fun other member => others other (by simp [member]))
        exact ⟨untouched.1.trans away.1, untouched.2.trans away.2⟩
      · intro other member
        rcases List.mem_cons.mp member with same | later
        · subst same
          refine ⟨ambient.utcNow (2 * index), log, ambient.uuid4 index,
            ambient.utcNow (2 * index + 1), ?_, read, ?_⟩
          · rw [own.1, ← middle]
            exact Dict.get?_set_self _ _ _
          · rw [own.2, ← middle]
            exact Dict.get?_set_self _ _ _
        · obtain ⟨completed, before, eventId, created, changed, logged, published⟩ :=
            summary.hit later
          rw [(frame (different other later)).2] at logged
          exact ⟨completed, before, eventId, created, changed, logged, published⟩

private theorem values_distinct (coherent : Coherent store) :
    (store.runs.values.map (·.id)).Nodup :=
  store.runs.nodup_values coherent.runId

/-- The runs that a filtered sweep collects. -/
def matchingRuns (store : InMemorySessionStore) (selected : AgentRun → Bool) : List AgentRun :=
  store.runs.values.filter fun run => run.Active ∧ selected run

theorem mem_matchingRuns (coherent : Coherent store) (selected : AgentRun → Bool)
    (run : AgentRun) : run ∈ matchingRuns store selected ↔
      store.runs.get? run.id = some run ∧ run.Active ∧ selected run := by
  simp only [matchingRuns, List.mem_filter, Dict.mem_values_iff, decide_eq_true_eq]
  constructor
  · rintro ⟨⟨ref, found⟩, test⟩
    have same := coherent.runId found
    subst same
    exact ⟨found, test⟩
  · rintro ⟨found, test⟩
    exact ⟨⟨_, found⟩, test⟩

theorem matchingRuns_collected (coherent : Coherent store) (selected : AgentRun → Bool) :
    Collected store (matchingRuns store selected) where
  present run member := by
    obtain ⟨found, active, _⟩ := (mem_matchingRuns coherent selected run).mp member
    exact ⟨found, active⟩
  distinct := (values_distinct coherent).sublist (List.filter_sublist.map _)

theorem interruptMatching_ok (coherent : Coherent store) (selected : AgentRun → Bool)
    (ambient : Ambient) :
    ∃ after, interruptMatching selected ambient store =
        (.ok (matchingRuns store selected).length, after) ∧
      Interrupted store (matchingRuns store selected) after := by
  obtain ⟨after, swept, summary⟩ := interruptEach_ok ambient (matchingRuns store selected) 0 store
    coherent (matchingRuns_collected coherent selected)
  refine ⟨after, ?_, summary⟩
  simp only [interruptMatching, Command.bind_apply, Command.read_apply]
  rw [← matchingRuns, swept]
  rfl

/-- What pruning leaves: logs of terminal runs lose their expired events. -/
structure Pruned (store : InMemorySessionStore) (before : Time) (runIds : List String)
    (after : InMemorySessionStore) : Prop where
  edits : ∃ effects, Run Edit store effects after ∧
    ∀ effect ∈ effects, ∃ runId, effect = .pruned runId before
  sessions : after.sessions = store.sessions
  messages : after.messages = store.messages
  runs : after.runs = store.runs
  idempotency : after.idempotency = store.idempotency
  skipped : ref ∉ runIds → after.events.get? ref = store.events.get? ref
  hit : ref ∈ runIds → store.runs.get? ref = some run → store.events.get? ref = some log →
    after.events.get? ref = some (if run.Terminal
      then log.filter fun event => before ≤ event.createdAt else log)

private theorem pruneEach_ok (before : Time) (entries : List (String × List StreamEvent)) :
    ∀ store : InMemorySessionStore, Coherent store →
      (∀ entry ∈ entries, store.events.get? entry.1 = some entry.2) →
      (entries.map Prod.fst).Nodup →
      ∃ removed after, pruneEach before entries store = (.ok removed, after) ∧
        Pruned store before (entries.map Prod.fst) after := by
  induction entries with
  | nil =>
    intro store _ _ _
    exact ⟨0, store, rfl, ⟨[], .nil, by simp⟩, rfl, rfl, rfl, rfl, fun _ => rfl,
      fun member => by simp at member⟩
  | cons entry rest ih =>
    intro store coherent present distinct
    obtain ⟨runId, log⟩ := entry
    obtain ⟨absent, distinctRest⟩ := List.nodup_cons.mp distinct
    have read : store.events.get? runId = some log := present (runId, log) (by simp)
    obtain ⟨run, found⟩ := coherent.runOf read
    have different : ∀ other ∈ rest, other.1 ≠ runId := by
      intro other member same
      exact absent (List.mem_map.mpr ⟨other, member, same⟩)
    have presentRest := fun other member => present other (List.mem_cons_of_mem _ member)
    by_cases terminal : run.Terminal
    · have same := coherent.runId found
      subst same
      have edit : Edit store (.pruned run.id before)
          (withLog store run.id (log.filter fun event => before ≤ event.createdAt)) :=
        .prune found terminal read before
      obtain ⟨removed, after, swept, summary⟩ := ih _ (edit.coherent coherent)
        (fun other member => by
          rw [← presentRest other member]
          exact Dict.get?_set_ne _ _ (different other member))
        distinctRest
      obtain ⟨effects, run', each⟩ := summary.edits
      refine ⟨log.length - (log.filter fun event => before ≤ event.createdAt).length + removed,
        after, ?_, ⟨_, .cons edit run', by simpa using each⟩, summary.sessions, summary.messages,
        summary.runs, summary.idempotency, ?_, ?_⟩
      · simp only [pruneEach, Command.bind_apply, item_ok runs found, terminal,
          ↓reduceIte, Command.write_apply]
        rw [← withLog, swept]
        rfl
      · intro ref missing
        simp only [List.map_cons, List.mem_cons, not_or] at missing
        rw [summary.skipped missing.2]
        exact Dict.get?_set_ne _ _ missing.1
      · intro ref other otherLog member otherFound otherRead
        by_cases own : ref = run.id
        · subst own
          rw [summary.skipped absent, withLog, Dict.get?_set_self]
          rw [found] at otherFound
          rw [read] at otherRead
          cases otherFound
          cases otherRead
          rw [if_pos terminal]
        · have later : ref ∈ rest.map Prod.fst := by simpa [own] using member
          exact summary.hit later otherFound (by
            rw [← otherRead]
            exact Dict.get?_set_ne _ _ own)
    · obtain ⟨removed, after, swept, summary⟩ := ih store coherent presentRest distinctRest
      refine ⟨removed, after, ?_, summary.edits, summary.sessions, summary.messages,
        summary.runs, summary.idempotency, ?_, ?_⟩
      · simp only [pruneEach, Command.bind_apply, item_ok runs found, terminal,
          ↓reduceIte, swept]
      · intro ref missing
        simp only [List.map_cons, List.mem_cons, not_or] at missing
        exact summary.skipped missing.2
      · intro ref other otherLog member otherFound otherRead
        by_cases own : ref = runId
        · subst own
          rw [summary.skipped absent, read]
          rw [found] at otherFound
          rw [read] at otherRead
          cases otherFound
          cases otherRead
          rw [if_neg terminal]
        · exact summary.hit (by simpa [own] using member) otherFound otherRead

/-- The events that pruning removes from one log. -/
def expiredIn (store : InMemorySessionStore) (before : Time)
    (entry : String × List StreamEvent) : List StreamEvent :=
  entry.2.filter fun event => event.createdAt < before ∧
    ∃ run ∈ store.runs.get? entry.1, run.Terminal

theorem pruneEach_count (before : Time) (entries : List (String × List StreamEvent))
    (store : InMemorySessionStore)
    (present : ∀ entry ∈ entries, (store.runs.get? entry.1).isSome) :
    (pruneEach before entries store).1 =
      .ok (entries.flatMap (expiredIn store before)).length := by
  induction entries generalizing store with
  | nil => rfl
  | cons entry rest ih =>
    obtain ⟨ref, log⟩ := entry
    obtain ⟨run, found⟩ := Option.isSome_iff_exists.mp (present (ref, log) List.mem_cons_self)
    have presentRest := fun entry member => present entry (List.mem_cons_of_mem _ member)
    by_cases terminal : run.Terminal
    · have counted := ih (withLog store ref (log.filter fun event => before ≤ event.createdAt))
        presentRest
      have gone : (expiredIn store before (ref, log)).length =
          log.length - (log.filter fun event => before ≤ event.createdAt).length := by
        have both : log.length = (log.filter fun event => before ≤ event.createdAt).length +
            (log.filter fun event => !decide (before ≤ event.createdAt)).length :=
          List.length_eq_length_filter_add _
        have same : expiredIn store before (ref, log) =
            log.filter fun event => !decide (before ≤ event.createdAt) := by
          apply List.filter_congr
          intro event _
          rw [← decide_not]
          simp [found, terminal]
        rw [same]
        omega
      simp only [pruneEach, Command.bind_apply, item_ok runs found, terminal, ↓reduceIte,
        Command.write_apply]
      rw [← withLog]
      cases swept : pruneEach before rest
          (withLog store ref (log.filter fun event => before ≤ event.createdAt)) with
      | mk result after =>
        rw [swept] at counted
        dsimp only at counted
        subst counted
        rw [List.flatMap_cons, List.length_append, gone]
        rfl
    · have kept : expiredIn store before (ref, log) = [] := by
        simp [expiredIn, found, terminal]
      simp only [pruneEach, Command.bind_apply, item_ok runs found, terminal, ↓reduceIte]
      rw [ih store presentRest, List.flatMap_cons, kept, List.nil_append]

theorem pruneStreamEvents_ok (coherent : Coherent store) (before : Time) :
    ∃ removed after, pruneStreamEvents before store = (.ok removed, after) ∧
      Pruned store before (store.events.entries.map Prod.fst) after := by
  obtain ⟨removed, after, swept, summary⟩ := pruneEach_ok before store.events.entries store
    coherent (fun entry member => (Dict.mem_entries_iff _ _ _).mp member) store.events.nodup
  exact ⟨removed, after, by simpa [pruneStreamEvents, Command.bind_apply] using swept, summary⟩

end DayuAgent.InMemorySessionStore
