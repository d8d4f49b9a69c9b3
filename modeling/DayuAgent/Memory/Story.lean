import DayuAgent.Memory.EventLog

namespace DayuAgent

open Library InMemorySessionStore

/-- The event that closes a run in the given status. -/
def RunStatus.closing : RunStatus → Option StreamEventType
  | .completed => some .responseCompleted
  | .failed => some .runFailed
  | .cancelled => some .runCancelled
  | .interrupted => some .runInterrupted
  | .pending | .running => none

theorem RunStatus.closing_ends {status : RunStatus} (closes : status.closing = some type) :
    type ∈ terminalEventTypes := by
  cases status <;> cases closes <;> decide

/-- How often `run.started` occurs in a log. -/
def starts (log : List StreamEvent) : Nat :=
  (log.filter fun event => event.type = .runStarted).length

/-- The types of the terminal events of a log, in order. -/
def closings (log : List StreamEvent) : List StreamEventType :=
  (log.filter fun event => event.Ends).map (·.type)

structure Story (run : AgentRun) (log : List StreamEvent) : Prop where
  numbered : log.map (·.sequence) = List.range' 1 log.length
  started : starts log = if run.startedAt.isSome then 1 else 0
  pending : run.status = .pending → run.startedAt = none
  running : run.status = .running → run.startedAt.isSome
  closed : closings log = run.status.closing.toList
  settled : run.completedAt.isSome ↔ run.Terminal
  completed : run.status = .completed → run.startedAt.isSome ∧ run.errorCode = none ∧
    ∃ result, run.result = some result ∧ ∀ event ∈ log, event.type = .responseCompleted →
      event.payload.lookup "result" = some (.obj result)
  failed : run.status = .failed → run.result = none ∧
    ∃ code, run.errorCode = some code ∧ ∀ event ∈ log, event.type = .runFailed →
      event.payload.lookup "error_code" = some (.str code)
  bare : run.status ≠ .completed → run.status ≠ .failed → run.result = none ∧ run.errorCode = none

theorem starts_snoc (log : List StreamEvent) (event : StreamEvent) :
    starts (log ++ [event]) = starts log + if event.type = .runStarted then 1 else 0 := by
  by_cases first : event.type = .runStarted <;> simp [starts, List.filter_append, first]

theorem closings_snoc (log : List StreamEvent) (event : StreamEvent) :
    closings (log ++ [event]) = closings log ++ if event.Ends then [event.type] else [] := by
  by_cases ends : event.Ends <;> simp [closings, List.filter_append, ends]

private theorem closings_nil (none : closings log = []) : ∀ event ∈ log, ¬ event.Ends := by
  intro event member ends
  have listed : event.type ∈ closings log :=
    List.mem_map_of_mem (List.mem_filter.mpr ⟨member, decide_eq_true ends⟩)
  rw [none] at listed
  contradiction

namespace Story

variable {run updated : AgentRun} {log : List StreamEvent}

theorem unended (story : Story run log) (active : run.Active) : ∀ event ∈ log, ¬ event.Ends := by
  apply closings_nil
  rw [story.closed]
  cases status : run.status <;> simp_all [AgentRun.Active, activeRunStatuses, RunStatus.closing]

theorem unsettled (story : Story run log) (active : run.Active) : run.completedAt = none := by
  rw [← Option.not_isSome_iff_eq_none, story.settled]
  exact fun terminal => AgentRun.not_active_of_terminal terminal active

theorem unwritten (story : Story run log) (active : run.Active) :
    run.result = none ∧ run.errorCode = none := by
  apply story.bare <;> intro status <;> simp [AgentRun.Active, status, activeRunStatuses] at active

/-- No old event of an active run closes it, whatever the new event is. -/
theorem only (story : Story run log) (active : run.Active) (ends : type ∈ terminalEventTypes)
    (member : event ∈ log ++ [last]) (same : event.type = type) : event = last := by
  rcases List.mem_append.mp member with old | new
  · exact (story.unended active event old (ends_of_type same ends)).elim
  · exact List.mem_singleton.mp new

theorem reserved (request : ReserveRunRequest) (sessionId : String) (ambient : Ambient) :
    Story (pendingRun request sessionId ambient) [] where
  numbered := rfl
  started := rfl
  pending _ := rfl
  running status := by contradiction
  closed := rfl
  settled := by simp [pendingRun, AgentRun.Terminal, terminalRunStatuses]
  completed status := by contradiction
  failed status := by contradiction
  bare _ _ := ⟨rfl, rfl⟩

theorem attempted (story : Story run log) :
    Story { run with attemptCount := run.attemptCount + 1 } log :=
  ⟨story.numbered, story.started, story.pending, story.running, story.closed, story.settled,
    story.completed, story.failed, story.bare⟩

private theorem emitted (story : Story run log) (delta : event.type = .responseDelta)
    (next : event.sequence = log.length + 1) : Story run (log ++ [event]) where
  numbered := SoundLog.numbered_snoc story.numbered next
  started := by rw [starts_snoc, story.started, delta]; simp
  pending := story.pending
  running := story.running
  closed := by
    rw [closings_snoc, if_neg (not_ends_of_type delta (by decide)), List.append_nil, story.closed]
  settled := story.settled
  completed status := by
    obtain ⟨began, clean, result, kept, old⟩ := story.completed status
    refine ⟨began, clean, result, kept, ?_⟩
    intro other member same
    rcases List.mem_append.mp member with earlier | new
    · exact old other earlier same
    · rw [List.mem_singleton.mp new, delta] at same
      contradiction
  failed status := by
    obtain ⟨empty, code, kept, old⟩ := story.failed status
    refine ⟨empty, code, kept, ?_⟩
    intro other member same
    rcases List.mem_append.mp member with earlier | new
    · exact old other earlier same
    · rw [List.mem_singleton.mp new, delta] at same
      contradiction
  bare := story.bare

/-- An active run that is closed by its next event: what a record has to say is what the
closing event says. -/
theorem finished (story : Story run log) (active : run.Active) (terminal : updated.Terminal)
    (sameStart : updated.startedAt = run.startedAt) (stamped : updated.completedAt.isSome)
    (closes : updated.status.closing = some event.type)
    (next : event.sequence = log.length + 1)
    (completed : updated.status = .completed → run.status = .running ∧ updated.errorCode = none ∧
      ∃ result, updated.result = some result ∧ event.payload.lookup "result" = some (.obj result))
    (failed : updated.status = .failed → updated.result = run.result ∧
      ∃ code, updated.errorCode = some code ∧
        event.payload.lookup "error_code" = some (.str code))
    (bare : updated.status ≠ .completed → updated.status ≠ .failed →
      updated.result = run.result ∧ updated.errorCode = run.errorCode) :
    Story updated (log ++ [event]) := by
  have ends : event.Ends := RunStatus.closing_ends closes
  have quiet : event.type ≠ .runStarted := by
    intro first
    rw [StreamEvent.Ends, first] at ends
    exact absurd ends (by decide)
  have inactive : updated.status ≠ .pending ∧ updated.status ≠ .running := by
    constructor <;> intro status <;>
      simp [AgentRun.Terminal, status, terminalRunStatuses] at terminal
  have only {other : StreamEvent} (member : other ∈ log ++ [event])
      (same : other.type = event.type) : other = event := story.only active ends member same
  refine ⟨SoundLog.numbered_snoc story.numbered next, ?_, ?_, ?_, ?_, ?_, ?_, ?_, ?_⟩
  · rw [starts_snoc, story.started, if_neg quiet, sameStart, Nat.add_zero]
  · exact fun status => (inactive.1 status).elim
  · exact fun status => (inactive.2 status).elim
  · have none : closings log = [] :=
      List.map_eq_nil_iff.mpr (List.filter_eq_nil_iff.mpr fun other member => by
        simpa using story.unended active other member)
    rw [closings_snoc, none, if_pos ends, closes]
    rfl
  · exact ⟨fun _ => terminal, fun _ => stamped⟩
  · intro status
    obtain ⟨running, clean, result, kept, said⟩ := completed status
    refine ⟨sameStart ▸ story.running running, clean, result, kept, ?_⟩
    intro other member same
    rw [status] at closes
    rw [only member (same.trans (Option.some.inj closes))]
    exact said
  · intro status
    obtain ⟨same, code, kept, said⟩ := failed status
    refine ⟨same.trans (story.unwritten active).1, code, kept, ?_⟩
    intro other member same
    rw [status] at closes
    rw [only member (same.trans (Option.some.inj closes))]
    exact said
  · intro unfinished unfailed
    obtain ⟨sameResult, sameCode⟩ := bare unfinished unfailed
    obtain ⟨none, clean⟩ := story.unwritten active
    exact ⟨sameResult.trans none, sameCode.trans clean⟩

private theorem moved (story : Story run log) (move : Move run updated type payload)
    (eventId : String)
    (now : Time) : Story updated (log ++ [nextEvent log run.id type payload eventId now]) := by
  cases move with
  | start pending began workerInstanceId =>
    have active : run.Active := by simp [AgentRun.Active, pending, activeRunStatuses]
    have unstarted := story.pending pending
    refine ⟨SoundLog.numbered_snoc story.numbered rfl, ?_, by simp, by simp, ?_, ?_, by simp,
      by simp, fun _ _ => story.unwritten active⟩
    · rw [starts_snoc, story.started, unstarted]
      simp [nextEvent]
    · rw [closings_snoc, story.closed, pending,
        if_neg (by simp [StreamEvent.Ends, nextEvent, terminalEventTypes])]
      rfl
    · simp [story.unsettled active, AgentRun.Terminal, terminalRunStatuses]
  | fail active completed errorCode =>
    apply story.finished active <;>
      simp [AgentRun.Terminal, terminalRunStatuses, RunStatus.closing, nextEvent, statusPayload,
        List.lookup_cons]
  | cancel active completed =>
    apply story.finished active <;>
      simp [AgentRun.Terminal, terminalRunStatuses, RunStatus.closing, nextEvent]
  | interrupt active completed =>
    apply story.finished active <;>
      simp [AgentRun.Terminal, terminalRunStatuses, RunStatus.closing, nextEvent]

private theorem committed (story : Story run log) (running : run.status = .running)
    (request : CommitRunRequest) (completed : Time) (eventId : String) (now : Time) :
    Story (completedRun run request completed) (log ++ [nextEvent log run.id .responseCompleted
      [("result", .obj request.result.modelDump)] eventId now]) := by
  have active : run.Active := by simp [AgentRun.Active, running, activeRunStatuses]
  apply story.finished active <;>
    simp [AgentRun.Terminal, terminalRunStatuses, RunStatus.closing, nextEvent, completedRun,
      running, List.lookup_cons]

end Story

private theorem story_narrates : Narrates (· = .responseDelta) Story where
  reserved := Story.reserved
  attempted story _ := story.attempted
  emitted story delta := story.emitted delta rfl
  moved story move := story.moved move _ _
  committed request completed story running := story.committed running request completed _ _

namespace InMemorySessionStore

/-- After any history without pruning in which only deltas are published by hand, the record
of every run and its event log tell the same story. -/
theorem records_match_logs (history : History empty calls store)
    (streams : ∀ call ∈ calls, call.operation.Streams)
    (found : store.runs.get? ref = some run) :
    ∃ log, store.events.get? ref = some log ∧ Story run log := by
  have coherent := History.coherent history empty_coherent
  obtain ⟨log, read⟩ := coherent.logOf found
  refine ⟨log, read, ?_⟩
  have logged : Logged Story store := by
    clear found read coherent
    induction history with
    | nil => exact empty_logged Story
    | snoc earlier answers ih =>
      have before := History.coherent earlier empty_coherent
      obtain ⟨effects, edits, makes⟩ := Answers.refines answers before
      have each := fun effect member =>
        (makes_streams makes (streams _ (by simp)) effect member).emits
      exact edits_logged edits before story_narrates each
        (ih fun call member => streams call (List.mem_append_left _ member))
  exact logged.agrees found read

theorem records_match_logs_sampleTurn : ∃ run log,
    (execute empty sampleTurn).2.runs.get? "run" = some run ∧ run.status = .completed ∧
    (execute empty sampleTurn).2.events.get? "run" = some log ∧ Story run log := by
  have found : (execute empty sampleTurn).2.runs.get? "run" = some _ := rfl
  obtain ⟨log, read, story⟩ :=
    records_match_logs (execute_history sampleTurn empty (by decide)) (by decide) found
  exact ⟨_, log, found, rfl, read, story⟩

end InMemorySessionStore

end DayuAgent
