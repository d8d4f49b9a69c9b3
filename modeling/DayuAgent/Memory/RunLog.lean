import DayuAgent.Library.Journal
import DayuAgent.Memory.Fulfilment

/-! One run and the journal of its events, under deltas that arrive late and under pruning:
what a write may do to them in either store, and what holds of them then. -/

namespace DayuAgent

open Library

/-- What one write does to a run and adds to its log after the events issued before. `late`
says whether a delta may reach a run that is terminal. -/
inductive Extends (late : Prop) (issued : List StreamEvent) :
    Option AgentRun → Option AgentRun → List StreamEvent → Prop where
  | idle : Extends late issued row row []
  | opened (active : run.Active) : Extends late issued none (some run) []
  | kept (active : run.Active) (stays : updated.Active) :
      Extends late issued (some run) (some updated) []
  | published (active : run.Active) (next : event.sequence = issued.length + 1)
      (agrees : (updated.Active ∧ ¬ event.Ends) ∨ (updated.Terminal ∧ event.Ends)) :
      Extends late issued (some run) (some updated) [event]
  | late (admitted : late) (next : event.sequence = issued.length + 1) (quiet : ¬ event.Ends) :
      Extends late issued (some run) (some run) [event]

theorem Extends.frozen {late : Prop} (extension : Extends late issued (some run) row added)
    (terminal : run.Terminal) : row = some run := by
  cases extension with
  | idle | late => rfl
  | kept active | published active =>
    exact ((not_active_iff_terminal _).mpr terminal active).elim

/-- A run agrees with its journal: complete while the run is active, and unless deltas are
late closed by its terminal event. -/
structure Closes (late : Prop) (row : Option AgentRun) (journal : Journal StreamEvent) :
    Prop where
  sound : journal.Sound (·.sequence)
  absent : row = none → journal.issued = []
  complete : row = some run → run.Active → journal.stored = journal.issued
  unended : row = some run → run.Active → ∀ event ∈ journal.issued, ¬ event.Ends
  ended : ¬ late → row = some run → run.Terminal → ∃ front last,
    journal.issued = front ++ [last] ∧ last.Ends ∧ ∀ event ∈ front, ¬ event.Ends

namespace Closes

variable {late : Prop} {row : Option AgentRun} {journal : Journal StreamEvent}

theorem empty (late : Prop) : Closes late none Journal.empty where
  sound := Journal.empty_sound
  absent _ := rfl
  complete found := by simp at found
  unended found := by simp at found
  ended _ found := by simp at found

/-- Publishing while the run is active. -/
theorem publish {run updated : AgentRun} (closes : Closes late (some run) journal)
    (active : run.Active) (next : event.sequence = journal.issued.length + 1)
    (agrees : (updated.Active ∧ ¬ event.Ends) ∨ (updated.Terminal ∧ event.Ends)) :
    Closes late (some updated) (journal.append event) where
  sound := closes.sound.append next
  absent none := by simp at none
  complete _ _ := by rw [Journal.append, closes.complete rfl active]
  unended found stays other member := by
    cases found
    rcases List.mem_append.mp member with old | new
    · exact closes.unended rfl active other old
    · rw [List.mem_singleton.mp new]
      rcases agrees with ⟨_, quiet⟩ | ⟨terminal, _⟩
      · exact quiet
      · exact ((not_active_iff_terminal _).mpr terminal stays).elim
  ended _ found terminal := by
    cases found
    rcases agrees with ⟨stays, _⟩ | ⟨_, ends⟩
    · exact ((not_active_iff_terminal _).mpr terminal stays).elim
    · exact ⟨journal.issued, event, rfl, ends, closes.unended rfl active⟩

theorem advance (closes : Closes late row journal)
    (advances : Extends late journal.issued row after added) :
    Closes late after ⟨journal.stored ++ added, journal.issued ++ added⟩ := by
  cases advances with
  | idle => simpa using closes
  | opened active =>
    have none := closes.absent rfl
    have bare : journal.stored = [] := List.sublist_nil.mp (none ▸ closes.sound.kept)
    rw [List.append_nil, List.append_nil, none, bare]
    constructor
    · exact Journal.empty_sound
    · exact fun _ => rfl
    · exact fun _ _ => rfl
    · exact fun _ _ _ member => by simp at member
    · intro _ _ found terminal
      cases found
      exact ((not_active_iff_terminal _).mpr terminal active).elim
  | kept active stays =>
    rw [List.append_nil, List.append_nil]
    constructor
    · exact closes.sound
    · exact fun none => by simp at none
    · exact fun _ _ => closes.complete rfl active
    · exact fun _ _ => closes.unended rfl active
    · intro _ _ found terminal
      cases found
      exact ((not_active_iff_terminal _).mpr terminal stays).elim
  | published active next agrees => exact closes.publish active next agrees
  | @late run event admitted next quiet =>
    rcases active_or_terminal run.status with active | terminal
    · exact closes.publish active next (.inl ⟨active, quiet⟩)
    · constructor
      · exact closes.sound.append next
      · exact fun none => by simp at none
      · intro _ found active
        cases found
        exact ((not_active_iff_terminal _).mpr terminal active).elim
      · intro _ found active
        cases found
        exact ((not_active_iff_terminal _).mpr terminal active).elim
      · exact fun closed => (closed admitted).elim

/-- Pruning a terminal run. -/
theorem prune {run : AgentRun} (closes : Closes late (some run) journal) (terminal : run.Terminal)
    (fewer : rest.Sublist journal.stored) : Closes late (some run) (journal.retain rest) where
  sound := closes.sound.retain fewer
  absent none := by simp at none
  complete found active := by
    cases found
    exact ((not_active_iff_terminal _).mpr terminal active).elim
  unended := closes.unended
  ended := closes.ended

end Closes

namespace InMemorySessionStore

/-- The stored events of one run. -/
def eventLog (store : InMemorySessionStore) (ref : String) : List StreamEvent :=
  (store.events.get? ref).getD []

/-- Every run agrees with its journal, for given events issued so far. -/
def Journaled (late : Prop) (store : InMemorySessionStore) (issued : String → List StreamEvent) :
    Prop :=
  ∀ ref, Closes late (store.runs.get? ref) ⟨eventLog store ref, issued ref⟩

/-- What a call did to one log: it grew at its end, or lost events. -/
def Grows (store after : InMemorySessionStore) (ref : String) (added : List StreamEvent) : Prop :=
  eventLog after ref = eventLog store ref ++ added ∨
    (added = [] ∧ (eventLog after ref).Sublist (eventLog store ref))

/-- A delta may be appended: its run is active unless deltas are late, and nothing of the log
has been pruned. -/
def Timely (late : Prop) (store : InMemorySessionStore) (issued : String → List StreamEvent)
    (ref : String) : Prop :=
  (late ∨ ∀ run, store.runs.get? ref = some run → run.Active) ∧
    (eventLog store ref).length = (issued ref).length

variable {late : Prop} {store after : InMemorySessionStore} {issued : String → List StreamEvent}

theorem Grows.drop (grows : Grows store after ref added) :
    added = (eventLog after ref).drop (eventLog store ref).length := by
  rcases grows with longer | ⟨rfl, fewer⟩
  · rw [longer, List.drop_left]
  · exact (List.drop_eq_nil_of_le fewer.length_le).symm

theorem empty_journaled (late : Prop) : Journaled late empty fun _ => [] :=
  fun _ => .empty late

/-- What one edit does to one run is one step of its journal. -/
theorem advances_idle (sameRun : after.runs.get? ref = store.runs.get? ref)
    (sameLog : after.events.get? ref = store.events.get? ref) :
    ∃ added, Extends late (issued ref) (store.runs.get? ref) (after.runs.get? ref) added ∧
      eventLog after ref = eventLog store ref ++ added := by
  refine ⟨[], ?_, ?_⟩
  · rw [sameRun]
    exact .idle
  · rw [List.append_nil, eventLog, sameLog, eventLog]

end InMemorySessionStore

open InMemorySessionStore

theorem Edit.advances (edit : Edit store effect after) (journaled : Journaled late store issued)
    (timely : ∀ ref event, effect = .emitted ref event →
      event.type = .responseDelta ∧ Timely late store issued ref)
    (keeps : ∀ ref before, effect ≠ .pruned ref before) (ref : String) :
    ∃ added, Extends late (issued ref) (store.runs.get? ref) (after.runs.get? ref) added ∧
      eventLog after ref = eventLog store ref ++ added := by
  -- An active run has lost no event, so its next number is the one its journal expects.
  have next : ∀ {run : AgentRun} {log}, store.runs.get? run.id = some run → run.Active →
      store.events.get? run.id = some log → log.length + 1 = (issued run.id).length + 1 := by
    intro run log found active read
    have complete := (journaled run.id).complete found active
    simp only [eventLog, read, Option.getD_some] at complete
    rw [complete]
  cases edit with
  | ready | openSession | say | clear => exact advances_idle rfl rfl
  | reserve request own ambient opened absent =>
    by_cases same : ref = ambient.uuid4 1
    · subst same
      refine ⟨[], ?_, ?_⟩
      · rw [absent, show (withRun store (pendingRun request own ambient)).runs.get?
          (ambient.uuid4 1) = some (pendingRun request own ambient) from Dict.get?_set_self _ _ _]
        exact .opened (by simp [AgentRun.Active, pendingRun, activeRunStatuses])
      · have bare : eventLog store (ambient.uuid4 1) = [] := by
          have none := (journaled (ambient.uuid4 1)).absent absent
          exact List.sublist_nil.mp (none ▸ (journaled (ambient.uuid4 1)).sound.kept)
        rw [List.append_nil, bare, eventLog,
          show (withRun store (pendingRun request own ambient)).events.get?
            (ambient.uuid4 1) = some [] from Dict.get?_set_self _ _ _]
        rfl
    · exact advances_idle (Dict.get?_set_ne _ _ same) (Dict.get?_set_ne _ _ same)
  | @attempt run found active =>
    by_cases same : ref = run.id
    · subst same
      refine ⟨[], ?_, by rw [List.append_nil]; rfl⟩
      rw [found, show (withUpdate store run.id _).runs.get? run.id = some _ from
        Dict.get?_set_self _ _ _]
      exact .kept active active
    · exact advances_idle (Dict.get?_set_ne _ _ same) rfl
  | @emit run log found read type payload eventId now =>
    by_cases same : ref = run.id
    · subst same
      obtain ⟨delta, admitted, unpruned⟩ := timely run.id _ rfl
      simp only [eventLog, read, Option.getD_some] at unpruned
      have quiet := not_ends_of_type delta (by decide)
      refine ⟨[nextEvent log run.id type payload eventId now], ?_, ?_⟩
      · rw [show (withLog store run.id _).runs.get? run.id = some run from found, found]
        rcases admitted with behind | active
        · exact .late behind (congrArg (· + 1) unpruned) quiet
        · exact .published (active run found) (congrArg (· + 1) unpruned)
            (.inl ⟨active run found, quiet⟩)
      · simp [eventLog, read, withLog]
    · exact advances_idle rfl (Dict.get?_set_ne _ _ same)
  | @move run log updated type payload found read change eventId now =>
    by_cases same : ref = run.id
    · subst same
      refine ⟨[nextEvent log run.id type payload eventId now], ?_, ?_⟩
      · rw [found, show (withLog (withUpdate store run.id updated) run.id _).runs.get? run.id =
          some updated from Dict.get?_set_self _ _ _]
        refine .published change.active (next found change.active read) ?_
        rcases change.publishes with ⟨active, middle⟩ | ⟨terminal, last⟩
        · exact .inl ⟨active, not_ends_of_type rfl middle⟩
        · exact .inr ⟨terminal, ends_of_type rfl last⟩
      · simp [eventLog, read, withLog]
    · exact advances_idle (Dict.get?_set_ne _ _ same) (Dict.get?_set_ne _ _ same)
  | @commit run record history log found running session own transcript read request ambient =>
    by_cases same : ref = run.id
    · subst same
      have active : run.Active := by simp [AgentRun.Active, running, activeRunStatuses]
      have last : StreamEventType.responseCompleted ∈ terminalEventTypes := by decide
      refine ⟨[nextEvent log run.id .responseCompleted
        [("result", .obj request.result.modelDump)] (ambient.uuid4 2) (ambient.utcNow 3)], ?_, ?_⟩
      · rw [found, show (withTurn store run record history log request ambient).runs.get? run.id =
          some (completedRun run request (ambient.utcNow 2)) from Dict.get?_set_self _ _ _]
        refine .published active (next found active read) (.inr ⟨?_, ?_⟩)
        · simp [AgentRun.Terminal, completedRun, terminalRunStatuses]
        · exact ends_of_type rfl last
      · simp [eventLog, read, withTurn, withLog]
    · exact advances_idle (Dict.get?_set_ne _ _ same) (Dict.get?_set_ne _ _ same)
  | prune => exact (keeps _ _ rfl).elim

/-- The effects of one call publish nothing by hand, or are one event appended by hand, or
are those of a pruning. -/
theorem makes_kinds (makes : Makes operation reply effects) :
    (∀ effect ∈ effects, effect.Emits fun _ => False) ∨
      (∃ ref type payload event, operation = .appendStreamEvent ref type payload ∧
        event.type = type ∧ effects = [.emitted ref event]) ∨
      ∃ before, operation = .pruneStreamEvents before ∧
        ∀ effect ∈ effects, ∃ ref, effect = .pruned ref before := by
  have origin : ∀ effect ∈ effects, effect.ComesFrom operation := fun _ => makes.origin
  cases makes with
  | @emitted type payload ref event same =>
    exact .inr (.inl ⟨ref, type, payload, event, rfl, same, rfl⟩)
  | @pruned before count effects each => exact .inr (.inr ⟨before, rfl, each⟩)
  | raised | read | replayed | settled | declined => exact .inl (by simp)
  | initialized | closed | opened | said | cleared | reserved | started | attempted | committed
  | failed | cancelled | interrupted | reconciled =>
    refine .inl fun effect member => ?_
    have comes := origin effect member
    cases effect with
    | emitted =>
      obtain ⟨_, same⟩ := comes
      cases same
    | pruned => cases comes
    | _ => trivial

namespace InMemorySessionStore

variable {late : Prop} {store after : InMemorySessionStore} {issued : String → List StreamEvent}

/-- Edits that neither publish by hand nor prune. -/
theorem edits_journaled (edits : Run Edit store effects after)
    (quiet : ∀ effect ∈ effects, effect.Emits fun _ => False)
    (journaled : Journaled late store issued) :
    ∃ added : String → List StreamEvent,
      (∀ ref, eventLog after ref = eventLog store ref ++ added ref) ∧
        Journaled late after fun ref => issued ref ++ added ref := by
  induction edits with
  | nil => exact ⟨fun _ => [], by simp, by simpa using journaled⟩
  | snoc earlier edit ih =>
    obtain ⟨added, grown, between⟩ :=
      ih fun effect member => quiet effect (List.mem_append_left _ member)
    have silent := quiet _ (List.mem_append_right _ (List.mem_singleton_self _))
    have advances := edit.advances between (by rintro _ _ rfl; exact silent.elim)
      (by rintro _ _ rfl; exact silent)
    choose more step longer using advances
    refine ⟨fun ref => added ref ++ more ref, ?_, ?_⟩
    · intro ref
      rw [longer, grown, List.append_assoc]
    · intro ref
      have advanced := (between ref).advance (step ref)
      simp only [List.append_assoc] at advanced
      rw [longer ref]
      exact advanced

/-- One log is pruned; the run it belongs to is terminal. -/
theorem prune_journaled (edit : Edit store (.pruned own before) after)
    (journaled : Journaled late store issued) :
    (∀ ref, (eventLog after ref).Sublist (eventLog store ref)) ∧ Journaled late after issued := by
  cases edit with
  | @prune run log found terminal read before =>
    have kept : (log.filter fun event => before ≤ event.createdAt).Sublist log :=
      List.filter_sublist
    have own : eventLog store run.id = log := by rw [eventLog, read, Option.getD_some]
    refine ⟨fun ref => ?_, fun ref => ?_⟩
    · by_cases same : ref = run.id
      · subst same
        simp [eventLog, withLog, read]
      · rw [eventLog, withLog, Dict.get?_set_ne _ _ same]
        exact List.Sublist.refl _
    · by_cases same : ref = run.id
      · subst same
        have pruned := (found ▸ journaled run.id).prune terminal (own.symm ▸ kept)
        simpa [eventLog, withLog, Journal.retain, found, read] using pruned
      · have others := journaled ref
        rw [eventLog, withLog, Dict.get?_set_ne _ _ same]
        exact others

private theorem edits_pruned (edits : Run Edit store effects after)
    (journaled : Journaled late store issued)
    (each : ∀ effect ∈ effects, ∃ ref, effect = .pruned ref before) :
    (∀ ref, (eventLog after ref).Sublist (eventLog store ref)) ∧ Journaled late after issued := by
  induction edits with
  | nil => exact ⟨fun _ => List.Sublist.refl _, journaled⟩
  | snoc earlier edit ih =>
    obtain ⟨fewer, between⟩ :=
      ih fun effect member => each effect (List.mem_append_left _ member)
    obtain ⟨own, rfl⟩ := each _ (List.mem_append_right _ (List.mem_singleton_self _))
    obtain ⟨less, pruned⟩ := prune_journaled edit between
    exact ⟨fun ref => (less ref).trans (fewer ref), pruned⟩

/-- A call whose deltas are timely keeps every run in agreement with its journal. -/
theorem Answers.journaled (answers : Answers store call after) (coherent : Coherent store)
    (publishes : call.operation.Publishes)
    (timely : ∀ ref type payload, call.operation = .appendStreamEvent ref type payload →
      Timely late store issued ref)
    (journaled : Journaled late store issued) :
    ∃ added : String → List StreamEvent, (∀ ref, Grows store after ref (added ref)) ∧
      Journaled late after fun ref => issued ref ++ added ref := by
  obtain ⟨effects, edits, makes⟩ := answers.refines coherent
  rcases makes_kinds makes with quiet | ⟨own, type, payload, event, same, typed, rfl⟩ |
    ⟨before, same, each⟩
  · obtain ⟨added, grown, agrees⟩ := edits_journaled edits quiet journaled
    exact ⟨added, fun ref => .inl (grown ref), agrees⟩
  · have edit := edits.of_single
    have delta : type = .responseDelta := by
      rw [same] at publishes
      exact publishes
    have advances := edit.advances journaled
      (by rintro _ _ ⟨⟩; exact ⟨typed.trans delta, timely own type payload same⟩) (by simp)
    choose added step longer using advances
    refine ⟨added, fun ref => .inl (longer ref), fun ref => ?_⟩
    rw [longer ref]
    exact (journaled ref).advance (step ref)
  · obtain ⟨fewer, agrees⟩ := edits_pruned edits journaled each
    exact ⟨fun _ => [], fun ref => .inr ⟨rfl, fewer ref⟩, by simpa using agrees⟩

end InMemorySessionStore

end DayuAgent
