import DayuAgent.Memory.Terminal

namespace DayuAgent

open Library InMemorySessionStore

/-- Operations that remove no event and publish by hand nothing but deltas. -/
def Operation.Streams : Operation → Prop
  | .appendStreamEvent _ type _ => type = .responseDelta
  | .pruneStreamEvents _ => False
  | _ => True

instance : (operation : Operation) → Decidable operation.Streams
  | .appendStreamEvent _ type _ => inferInstanceAs (Decidable (type = .responseDelta))
  | .pruneStreamEvents _ => inferInstanceAs (Decidable False)
  | .initializeStore | .createSession .. | .getSession _ | .appendMessage .. | .listMessages _
  | .clearSession _ | .reserveRun _ | .getRun _ | .markRunRunning .. | .incrementRunAttempt _
  | .listStreamEvents .. | .commitRunSuccess .. | .failRun .. | .cancelRun ..
  | .interruptWorkerRuns _ | .reconcileOrphanedRuns _ | .ping | .close =>
    inferInstanceAs (Decidable True)

def Effect.Streams : Effect → Prop
  | .emitted _ event => event.type = .responseDelta
  | .pruned _ _ => False
  | _ => True

theorem makes_streams (makes : Makes operation reply effects) (streams : operation.Streams) :
    ∀ effect ∈ effects, effect.Streams := by
  intro effect member
  have origin := makes.origin member
  cases effect with
  | emitted =>
    obtain ⟨_, rfl⟩ := origin
    exact streams
  | pruned =>
    cases origin
    exact streams.elim
  | _ => trivial

/-- The event is the last one that a stream delivers. -/
def StreamEvent.Ends (event : StreamEvent) : Prop := event.type ∈ terminalEventTypes

instance (event : StreamEvent) : Decidable event.Ends := inferInstanceAs (Decidable (_ ∈ _))

theorem ends_of_type {event : StreamEvent} (same : event.type = type)
    (last : type ∈ terminalEventTypes) : event.Ends := by
  rw [StreamEvent.Ends, same]
  exact last

theorem not_ends_of_type {event : StreamEvent} (same : event.type = type)
    (middle : type ∉ terminalEventTypes) : ¬ event.Ends := by
  rw [StreamEvent.Ends, same]
  exact middle

theorem AgentRun.not_active_of_terminal {run : AgentRun} (terminal : run.Terminal) :
    ¬ run.Active := (not_active_iff_terminal _).mpr terminal

/-- A move publishes a terminal event exactly when it makes the run terminal. -/
theorem Move.publishes (move : Move run updated type payload) :
    (updated.Active ∧ type ∉ terminalEventTypes) ∨
      (updated.Terminal ∧ type ∈ terminalEventTypes) := by
  cases move with
  | start => exact .inl ⟨by simp [AgentRun.Active, activeRunStatuses], by decide⟩
  | fail | cancel | interrupt =>
    exact .inr ⟨by simp [AgentRun.Terminal, terminalRunStatuses], by decide⟩

/-- The event log of one run agrees with its record. -/
structure SoundLog (run : AgentRun) (log : List StreamEvent) : Prop where
  numbered : log.map (·.sequence) = List.range' 1 log.length
  unended : run.Active → ∀ event ∈ log, ¬ event.Ends
  ended : run.Terminal → ∃ earlier last later, log = earlier ++ last :: later ∧ last.Ends ∧
    ∀ event ∈ earlier ++ later, ¬ event.Ends

namespace SoundLog

theorem numbered_snoc {log : List StreamEvent}
    (numbered : log.map (·.sequence) = List.range' 1 log.length)
    (next : event.sequence = log.length + 1) :
    (log ++ [event]).map (·.sequence) = List.range' 1 (log ++ [event]).length := by
  simp only [List.map_append, List.map_cons, List.map_nil, List.length_append, List.length_cons,
    List.length_nil, List.range'_1_concat]
  rw [numbered, next, Nat.add_comm]

/-- An event that ends nothing leaves the run as active as it was. -/
theorem extend {run updated : AgentRun} (sound : SoundLog run log) (quiet : ¬ event.Ends)
    (next : event.sequence = log.length + 1) (stays : updated.Active ↔ run.Active) :
    SoundLog updated (log ++ [event]) where
  numbered := numbered_snoc sound.numbered next
  unended active other member := by
    rcases List.mem_append.mp member with old | new
    · exact sound.unended (stays.mp active) other old
    · cases List.mem_singleton.mp new
      exact quiet
  ended terminal := by
    have finished : run.Terminal :=
      (active_or_terminal _).resolve_left (mt stays.mpr (AgentRun.not_active_of_terminal terminal))
    obtain ⟨earlier, last, later, rfl, ends, others⟩ := sound.ended finished
    refine ⟨earlier, last, later ++ [event], by simp, ends, ?_⟩
    intro other member
    rw [← List.append_assoc, List.mem_append] at member
    rcases member with old | new
    · exact others other old
    · cases List.mem_singleton.mp new
      exact quiet

/-- A terminal event after an unended log. -/
theorem finish {run updated : AgentRun} (sound : SoundLog run log) (active : run.Active)
    (terminal : updated.Terminal) (ends : event.Ends)
    (next : event.sequence = log.length + 1) : SoundLog updated (log ++ [event]) where
  numbered := numbered_snoc sound.numbered next
  unended revived := (AgentRun.not_active_of_terminal terminal revived).elim
  ended _ := ⟨log, event, [], rfl, ends, by simpa using sound.unended active⟩

theorem same_status {run updated : AgentRun} (sound : SoundLog run log)
    (same : updated.status = run.status) : SoundLog updated log where
  numbered := sound.numbered
  unended active := sound.unended (by rwa [AgentRun.Active, same] at active)
  ended terminal := sound.ended (by rwa [AgentRun.Terminal, same] at terminal)

/-- A log has at most one terminal event. -/
theorem ending_unique (sound : SoundLog run log) (first : one ∈ log) (second : two ∈ log)
    (firstEnds : one.Ends) (secondEnds : two.Ends) : one = two := by
  rcases active_or_terminal run.status with active | terminal
  · exact (sound.unended active one first firstEnds).elim
  · obtain ⟨earlier, last, later, rfl, _, others⟩ := sound.ended terminal
    have only : ∀ event ∈ earlier ++ last :: later, event.Ends → event = last := by
      intro event member ends
      rcases List.mem_append.mp member with before | after
      · exact (others event (List.mem_append_left _ before) ends).elim
      · rcases List.mem_cons.mp after with same | behind
        · exact same
        · exact (others event (List.mem_append_right _ behind) ends).elim
    rw [only one first firstEnds, only two second secondEnds]

end SoundLog

/-- Filtering a numbered list by sequence cuts a segment out of it. -/
theorem filter_numbered {log : List StreamEvent} (first : Nat)
    (numbered : log.map (·.sequence) = List.range' (first + 1) log.length) (low high : Nat) :
    log.filter (fun event => low < event.sequence ∧ event.sequence ≤ high) =
      (log.take (high - first)).drop (low - first) := by
  induction log generalizing first with
  | nil => simp
  | cons event rest ih =>
    simp only [List.map_cons, List.length_cons, List.range'_succ, List.cons.injEq] at numbered
    obtain ⟨own, others⟩ := numbered
    have tail := ih (first + 1) others
    by_cases below : low ≤ first
    · have kept : low - (first + 1) = low - first := by omega
      by_cases above : high ≤ first
      · rw [List.filter_cons_of_neg (by simp; omega), tail,
          show high - (first + 1) = 0 by omega, show high - first = 0 by omega]
        simp
      · rw [List.filter_cons_of_pos (by simp; omega), tail,
          show high - first = high - (first + 1) + 1 by omega, show low - first = 0 by omega,
          show low - (first + 1) = 0 by omega]
        rfl
    · rw [List.filter_cons_of_neg (by simp; omega), tail,
        show low - first = low - (first + 1) + 1 by omega]
      cases remaining : high - first with
      | zero => simp [show high - (first + 1) = 0 by omega]
      | succ count => simp [show high - (first + 1) = count by omega]

/-- The events after a cursor are the tail of a numbered log. -/
theorem filter_numbered_tail {log : List StreamEvent}
    (numbered : log.map (·.sequence) = List.range' 1 log.length) (cursor : Nat) :
    log.filter (fun event => cursor < event.sequence) = log.drop cursor := by
  have segment := filter_numbered 0 numbered cursor log.length
  simp only [Nat.sub_zero, List.take_length] at segment
  rw [← segment]
  apply List.filter_congr
  intro event member
  have bounded : event.sequence ∈ List.range' 1 log.length := by
    rw [← numbered]
    exact List.mem_map_of_mem member
  simp only [List.mem_range'_1] at bounded
  simp only [decide_eq_decide]
  omega

theorem sequence_at {log : List StreamEvent}
    (numbered : log.map (·.sequence) = List.range' 1 log.length)
    (here : log[index]? = some event) : event.sequence = index + 1 := by
  have mapped : (log.map (·.sequence))[index]? = some event.sequence := by
    rw [List.getElem?_map, here]
    rfl
  rw [numbered, List.getElem?_range' (List.getElem?_eq_some_iff.mp here).1] at mapped
  simp only [Option.some.injEq] at mapped
  omega

theorem numbered_ordered {log : List StreamEvent}
    (numbered : log.map (·.sequence) = List.range' 1 log.length) :
    log.Pairwise fun first second => first.sequence < second.sequence := by
  have sorted : (log.map (·.sequence)).Pairwise (· < ·) := by
    rw [numbered]
    exact List.pairwise_lt_range'
  exact List.pairwise_map.mp sorted

/-- Operations that remove no event. -/
def Operation.Retains : Operation → Prop
  | .pruneStreamEvents _ => False
  | _ => True

instance : (operation : Operation) → Decidable operation.Retains
  | .pruneStreamEvents _ => inferInstanceAs (Decidable False)
  | .initializeStore | .createSession .. | .getSession _ | .appendMessage .. | .listMessages _
  | .clearSession _ | .reserveRun _ | .getRun _ | .markRunRunning .. | .incrementRunAttempt _
  | .appendStreamEvent .. | .listStreamEvents .. | .commitRunSuccess .. | .failRun ..
  | .cancelRun .. | .interruptWorkerRuns _ | .reconcileOrphanedRuns _ | .ping | .close =>
    inferInstanceAs (Decidable True)

theorem Operation.Streams.retains {operation : Operation} (streams : operation.Streams) :
    operation.Retains := by
  cases operation <;> trivial

/-- Removes no event, and publishes by hand only events of the given types. -/
def Effect.Emits (published : StreamEventType → Prop) : Effect → Prop
  | .emitted _ event => published event.type
  | .pruned _ _ => False
  | _ => True

theorem Effect.Streams.emits {effect : Effect} (streams : effect.Streams) :
    effect.Emits (· = .responseDelta) := by
  cases effect <;> exact streams

theorem makes_retains (makes : Makes operation reply effects) (retains : operation.Retains) :
    ∀ effect ∈ effects, effect.Emits fun _ => True := by
  intro effect member
  have origin := makes.origin member
  cases effect with
  | pruned =>
    cases origin
    exact retains.elim
  | _ => trivial

/-- What an agreement between a run and its event log has to survive so that every call
keeps it: one rule for each way in which a record or a log is written. -/
structure Narrates (published : StreamEventType → Prop)
    (Agrees : AgentRun → List StreamEvent → Prop) : Prop where
  reserved (request : ReserveRunRequest) (sessionId : String) (ambient : Ambient) :
    Agrees (pendingRun request sessionId ambient) []
  attempted : Agrees run log → run.Active →
    Agrees { run with attemptCount := run.attemptCount + 1 } log
  emitted : Agrees run log → published type →
    Agrees run (log ++ [nextEvent log run.id type payload eventId now])
  moved : Agrees run log → Move run updated type payload →
    Agrees updated (log ++ [nextEvent log run.id type payload eventId now])
  committed (request : CommitRunRequest) (completed : Time) : Agrees run log →
    run.status = .running → Agrees (completedRun run request completed)
      (log ++ [nextEvent log run.id .responseCompleted
        [("result", .obj request.result.modelDump)] eventId now])

namespace InMemorySessionStore

/-- Every run of the store agrees with its event log. -/
structure Logged (Agrees : AgentRun → List StreamEvent → Prop) (store : InMemorySessionStore) :
    Prop where
  agrees : store.runs.get? ref = some run → store.events.get? ref = some log → Agrees run log

theorem empty_logged (Agrees : AgentRun → List StreamEvent → Prop) : Logged Agrees empty where
  agrees found := by simp [empty] at found

/-- Writing the record or the log of one run. -/
theorem Logged.replace {store after : InMemorySessionStore} (logged : Logged Agrees store)
    (own : String) (others : ∀ ref, ref ≠ own →
      after.runs.get? ref = store.runs.get? ref ∧ after.events.get? ref = store.events.get? ref)
    (found : after.runs.get? own = some updated) (read : after.events.get? own = some written)
    (agrees : Agrees updated written) : Logged Agrees after where
  agrees {ref run log} present kept := by
    by_cases same : ref = own
    · subst same
      rw [found] at present
      rw [read] at kept
      cases present
      cases kept
      exact agrees
    · obtain ⟨sameRun, sameLog⟩ := others ref same
      exact logged.agrees (sameRun ▸ present) (sameLog ▸ kept)

end InMemorySessionStore

theorem Edit.logged (edit : Edit store effect after) (coherent : Coherent store)
    (narrates : Narrates published Agrees) (emits : effect.Emits published)
    (logged : Logged Agrees store) : Logged Agrees after := by
  cases edit with
  | ready | openSession | say | clear => exact ⟨logged.agrees⟩
  | prune => exact emits.elim
  | reserve request own ambient found absent =>
    refine logged.replace (ambient.uuid4 1) ?_ (Dict.get?_set_self _ _ _)
      (Dict.get?_set_self _ _ _) (narrates.reserved request own ambient)
    intro ref different
    exact ⟨Dict.get?_set_ne _ _ different, Dict.get?_set_ne _ _ different⟩
  | @attempt run found active =>
    obtain ⟨log, read⟩ := coherent.logOf found
    refine logged.replace run.id ?_ (Dict.get?_set_self _ _ _) read
      (narrates.attempted (logged.agrees found read) active)
    intro ref different
    exact ⟨Dict.get?_set_ne _ _ different, rfl⟩
  | @emit run log found read type payload eventId now =>
    refine logged.replace run.id ?_ found (Dict.get?_set_self _ _ _)
      (narrates.emitted (logged.agrees found read) emits)
    intro ref different
    exact ⟨rfl, Dict.get?_set_ne _ _ different⟩
  | @move run log updated type payload found read change =>
    refine logged.replace run.id ?_ (Dict.get?_set_self _ _ _) (Dict.get?_set_self _ _ _)
      (narrates.moved (logged.agrees found read) change)
    intro ref different
    exact ⟨Dict.get?_set_ne _ _ different, Dict.get?_set_ne _ _ different⟩
  | @commit run record history log found running session own transcript read request ambient =>
    refine logged.replace run.id ?_ (Dict.get?_set_self _ _ _) (Dict.get?_set_self _ _ _)
      (narrates.committed request (ambient.utcNow 2) (logged.agrees found read) running)
    intro ref different
    exact ⟨Dict.get?_set_ne _ _ different, Dict.get?_set_ne _ _ different⟩

namespace InMemorySessionStore

theorem edits_logged (edits : Run Edit store effects after) (coherent : Coherent store)
    (narrates : Narrates published Agrees) (each : ∀ effect ∈ effects, effect.Emits published)
    (logged : Logged Agrees store) : Logged Agrees after := by
  induction edits with
  | nil => exact logged
  | snoc earlier edit ih =>
    exact edit.logged (edits_coherent earlier coherent) narrates (each _ (by simp))
      (ih fun effect member => each effect (List.mem_append_left _ member))

end InMemorySessionStore

private theorem soundLog_narrates : Narrates (· = .responseDelta) SoundLog where
  reserved request sessionId ambient := by
    refine ⟨rfl, by simp, ?_⟩
    intro terminal
    simp [AgentRun.Terminal, pendingRun, terminalRunStatuses] at terminal
  attempted sound _ := sound.same_status rfl
  emitted sound delta := sound.extend (not_ends_of_type delta (by decide)) rfl Iff.rfl
  moved sound change := by
    rcases change.publishes with ⟨active, middle⟩ | ⟨terminal, last⟩
    · exact sound.extend (not_ends_of_type rfl middle) rfl
        ⟨fun _ => change.active, fun _ => active⟩
    · exact sound.finish change.active terminal (ends_of_type rfl last) rfl
  committed request completed sound running := by
    have last : StreamEventType.responseCompleted ∈ terminalEventTypes := by decide
    exact sound.finish (by simp [AgentRun.Active, running, activeRunStatuses])
      (by simp [AgentRun.Terminal, completedRun, terminalRunStatuses]) (ends_of_type rfl last) rfl

namespace InMemorySessionStore

structure SoundLogs (store : InMemorySessionStore) : Prop where
  agrees : store.runs.get? ref = some run → store.events.get? ref = some log → SoundLog run log

theorem empty_soundLogs : SoundLogs empty where
  agrees found := by simp [empty] at found

end InMemorySessionStore

/-- Logs only grow at their end. -/
theorem Edit.log_grows (edit : Edit store effect after) (coherent : Coherent store)
    (emits : effect.Emits published) (read : store.events.get? ref = some log) :
    ∃ more, after.events.get? ref = some (log ++ more) := by
  have append : ∀ {own old event}, store.events.get? own = some old →
      ∃ more, (store.events.set own (old ++ [event])).get? ref = some (log ++ more) := by
    intro own old event logged
    by_cases same : ref = own
    · subst same
      rw [read] at logged
      cases logged
      exact ⟨[event], Dict.get?_set_self _ _ _⟩
    · exact ⟨[], by rw [List.append_nil, Dict.get?_set_ne _ _ same, read]⟩
  cases edit with
  | ready | openSession | say | clear | attempt =>
    exact ⟨[], by rw [List.append_nil]; exact read⟩
  | emit found logged => exact append logged
  | move found logged => exact append logged
  | commit found running session own transcript logged => exact append logged
  | prune => exact emits.elim
  | reserve request own ambient found absent =>
    have different : ref ≠ ambient.uuid4 1 := by
      rintro rfl
      obtain ⟨run, present⟩ := coherent.runOf read
      rw [absent] at present
      contradiction
    exact ⟨[], by
      rw [List.append_nil, ← read]
      exact Dict.get?_set_ne _ _ different⟩

namespace InMemorySessionStore

variable {store after : InMemorySessionStore}

theorem Answers.soundLogs (answers : Answers store call after) (coherent : Coherent store)
    (streams : call.operation.Streams) (sound : SoundLogs store) : SoundLogs after := by
  obtain ⟨effects, edits, makes⟩ := answers.refines coherent
  have each := fun effect member => (makes_streams makes streams effect member).emits
  exact ⟨(edits_logged edits coherent soundLog_narrates each ⟨sound.agrees⟩).agrees⟩

theorem Answers.log_grows (answers : Answers store call after) (coherent : Coherent store)
    (retains : call.operation.Retains) (read : store.events.get? ref = some log) :
    ∃ more, after.events.get? ref = some (log ++ more) := by
  obtain ⟨effects, edits, makes⟩ := answers.refines coherent
  have each := makes_retains makes retains
  clear makes answers
  induction edits with
  | nil => exact ⟨[], by simpa using read⟩
  | snoc earlier edit ih =>
    obtain ⟨more, grown⟩ :=
      ih fun effect member => each effect (List.mem_append_left _ member)
    obtain ⟨rest, longer⟩ :=
      edit.log_grows (edits_coherent earlier coherent) (each _ (by simp)) grown
    exact ⟨more ++ rest, by rw [longer, List.append_assoc]⟩

end InMemorySessionStore

end DayuAgent
