import DayuAgent.Agents.Stream

namespace DayuAgent

open Library InMemorySessionStore

/-- A stream over a store that other parties keep using. -/
structure StreamSystem where
  store : InMemorySessionStore
  stream : StreamRun

inductive StreamLabel where
  | resume
  | call (ambient : Ambient) (operation : Operation)

namespace StreamSystem

def start (runId : String) (afterSequence : Nat) : StreamSystem :=
  { store := .empty, stream := .start runId afterSequence }

/-- Either the stream resumes or some party completes a store call. -/
def next (state : StreamSystem) : StreamLabel → Option StreamSystem
  | .resume => (state.stream.resume state.store).map fun stream => { state with stream }
  | .call ambient operation =>
    if ambient.Fresh state.store ∧ operation.Streams then
      some { state with store := (operation.perform ambient state.store).2 }
    else none

def Steps (before : StreamSystem) (label : StreamLabel) (after : StreamSystem) : Prop :=
  before.next label = some after

/-- A call step answers one call and leaves the stream where it is. -/
theorem next_call (taken : next state (.call ambient operation) = some after) :
    ∃ reply, Answers state.store { ambient, operation, reply } after.store ∧
      operation.Streams ∧ after.stream = state.stream := by
  simp only [next] at taken
  split at taken
  · next allowed =>
    cases taken
    exact ⟨(operation.perform ambient state.store).1, ⟨allowed.1, rfl⟩, allowed.2, rfl⟩
  · contradiction

theorem next_resume (taken : next state .resume = some after) :
    state.stream.resume state.store = some after.stream ∧ after.store = state.store := by
  simp only [next, Option.map_eq_some_iff] at taken
  obtain ⟨stream, resumed, rfl⟩ := taken
  exact ⟨resumed, rfl⟩

end StreamSystem

namespace StreamSystem

variable {before after state : StreamSystem}

/-- The invariant of every run of the system. -/
structure Tracks (state : StreamSystem) : Prop where
  coherent : Coherent state.store
  sound : SoundLogs state.store
  reads : (state.stream.phase = .starting ∧ state.stream.yielded = []) ∨
    (∃ error, state.stream.phase = .raised error) ∨
    ∃ run log, state.store.runs.get? state.stream.runId = some run ∧
      state.store.events.get? state.stream.runId = some log ∧
      Reading log state.stream.afterSequence state.stream.yielded state.stream.phase

private theorem start_tracks (runId : String) (afterSequence : Nat) :
    Tracks (start runId afterSequence) :=
  ⟨empty_coherent, empty_soundLogs, .inl ⟨rfl, rfl⟩⟩

/-- A stream that passed its first status check has its run in the store. -/
theorem Tracks.step (tracks : Tracks before) (taken : Steps before label after) :
    Tracks after := by
  cases label with
  | call ambient operation =>
    obtain ⟨reply, answers, streams, same⟩ := next_call taken
    refine ⟨Answers.coherent answers tracks.coherent,
      Answers.soundLogs answers tracks.coherent streams tracks.sound, ?_⟩
    rw [same]
    rcases tracks.reads with initial | failed | ⟨run, log, found, read, reading⟩
    · exact .inl initial
    · exact .inr (.inl failed)
    · obtain ⟨more, grown⟩ := Answers.log_grows answers tracks.coherent streams.retains read
      obtain ⟨later, present⟩ := (Answers.coherent answers tracks.coherent).runOf grown
      exact .inr (.inr ⟨later, _, present, grown, reading.grow more⟩)
  | resume =>
    obtain ⟨resumed, sameStore⟩ := next_resume taken
    obtain ⟨sameId, sameOrigin⟩ := StreamRun.resume_same resumed
    refine ⟨sameStore ▸ tracks.coherent, sameStore ▸ tracks.sound, ?_⟩
    rw [sameStore, sameId, sameOrigin]
    have advance : ∀ {run log}, before.store.runs.get? before.stream.runId = some run →
        before.store.events.get? before.stream.runId = some log →
        Reading log before.stream.afterSequence before.stream.yielded before.stream.phase →
        ∃ run log, before.store.runs.get? before.stream.runId = some run ∧
          before.store.events.get? before.stream.runId = some log ∧
          Reading log before.stream.afterSequence after.stream.yielded after.stream.phase :=
      fun found read reading => ⟨_, _, found, read,
        StreamRun.resume_reading tracks.sound found read reading resumed⟩
    rcases tracks.reads with ⟨starting, none⟩ | ⟨error, failed⟩ | ⟨run, log, found, read, reading⟩
    · cases found : before.store.runs.get? before.stream.runId with
      | none =>
        simp only [StreamRun.resume, starting, getRun, runLocked_missing found] at resumed
        rw [Option.some.injEq] at resumed
        exact .inr (.inl ⟨_, by rw [← resumed]⟩)
      | some run =>
        obtain ⟨log, read⟩ := tracks.coherent.logOf found
        rw [found] at advance
        exact .inr (.inr (advance rfl read (by rw [starting]; exact none)))
    · simp only [StreamRun.resume, failed] at resumed
      contradiction
    · exact .inr (.inr (advance found read reading))

theorem run_tracks (run : Run Steps (start runId afterSequence) labels state) : Tracks state :=
  run.invariant (start_tracks runId afterSequence) Tracks.step

/-- The run ends while the stream is between a listing and its status check. -/
def Races (before after : StreamSystem) : Prop :=
  before.stream.Watching ∧
  (∃ run, before.store.runs.get? before.stream.runId = some run ∧ run.Active) ∧
  ∃ run, after.store.runs.get? before.stream.runId = some run ∧ run.Terminal

/-- Some step of the run is such a race. -/
def Raced (origin : StreamSystem) (labels : List StreamLabel) : Prop :=
  ∃ earlier label later before after, labels = earlier ++ label :: later ∧
    Run Steps origin earlier before ∧ Steps before label after ∧ Races before after

theorem Raced.snoc (raced : Raced origin labels) (label : StreamLabel) :
    Raced origin (labels ++ [label]) := by
  obtain ⟨earlier, other, later, before, after, rfl, run, taken, races⟩ := raced
  exact ⟨earlier, other, later ++ [label], before, after, by simp, run, taken, races⟩

private theorem resume_prompt {stream : StreamRun} (tracks : Tracks before)
    (found : before.store.runs.get? before.stream.runId = some run)
    (read : before.store.events.get? before.stream.runId = some log)
    (beyond : ∀ event ∈ log, event.Ends → before.stream.afterSequence < event.sequence)
    (prompt : before.stream.Prompt run)
    (resumed : before.stream.resume before.store = some stream) : stream.Prompt run := by
  have sound := tracks.sound.agrees found read
  have reading : Reading log before.stream.afterSequence before.stream.yielded
      before.stream.phase := by
    rcases tracks.reads with
    ⟨starting, none⟩ | ⟨error, failed⟩ | ⟨other, events, present, logged, reading⟩
    · rw [starting]
      exact none
    · rw [failed]
      trivial
    · rw [read] at logged
      cases logged
      exact reading
  simp only [StreamRun.resume] at resumed
  split at resumed
  · split at resumed <;> cases resumed <;> trivial
  · next cursor listing =>
    rw [listStreamEvents_ok found read, filter_numbered_tail sound.numbered] at resumed
    cases resumed
    rw [listing] at reading
    refine StreamRun.deliver_prompt _ run cursor fun terminal => ?_
    obtain ⟨earlier, ending, later, split, ends, _⟩ := sound.ended terminal
    have member : ending ∈ log := by simp [split]
    exact ⟨ending, reading.mem_rest sound.numbered member ends (beyond ending member ends), ends⟩
  · next cursor event rest paused =>
    simp only [StreamRun.Prompt, paused] at prompt
    split at resumed
    · next ends =>
      cases resumed
      rw [paused] at reading
      obtain ⟨index, bound, yielded, _, _, _, same, _⟩ := reading
      exact ⟨event, by simp [same], ends⟩
    · next quiet =>
      cases resumed
      refine StreamRun.deliver_prompt _ run cursor fun terminal => ?_
      obtain ⟨ending, member, ends⟩ := prompt terminal
      rcases List.mem_cons.mp member with rfl | later
      · exact (quiet ends).elim
      · exact ⟨ending, later, ends⟩
  · next cursor checking =>
    simp only [StreamRun.Prompt, checking] at prompt
    rw [getRun, runLocked_ok found] at resumed
    simp only at resumed
    split at resumed
    · next terminal => exact (AgentRun.not_active_of_terminal terminal prompt).elim
    · cases resumed
      trivial
  · cases resumed
    trivial
  · contradiction
  · contradiction

/-- A step that is no race keeps the stream prompt. -/
theorem Steps.prompt (taken : Steps before label after) (tracks : Tracks before)
    (calm : ¬ Races before after)
    (beyond : ∀ {log}, after.store.events.get? before.stream.runId = some log →
      ∀ event ∈ log, event.Ends → before.stream.afterSequence < event.sequence)
    (prompt : ∀ run, before.store.runs.get? before.stream.runId = some run →
      before.stream.Prompt run)
    (found : after.store.runs.get? before.stream.runId = some run) : after.stream.Prompt run := by
  cases label with
  | resume =>
    obtain ⟨resumed, same⟩ := next_resume taken
    rw [same] at found beyond
    obtain ⟨log, read⟩ := tracks.coherent.logOf found
    exact resume_prompt tracks found read (beyond read) (prompt run found) resumed
  | call ambient operation =>
    obtain ⟨reply, answers, _, same⟩ := next_call taken
    rw [same]
    -- A watched run keeps its side of the active/terminal border.
    have watched : before.stream.Watching → run.Terminal →
        before.store.runs.get? before.stream.runId = some run := by
      intro watching terminal
      rcases tracks.reads with ⟨starting, _⟩ | ⟨error, failed⟩ | ⟨former, _, present, _, _⟩
      · simp [StreamRun.Watching, starting] at watching
      · simp [StreamRun.Watching, failed] at watching
      · rcases active_or_terminal former.status with active | finished
        · exact (calm ⟨watching, ⟨former, present, active⟩, run, found, terminal⟩).elim
        · rw [Answers.terminal answers tracks.coherent present finished] at found
          rw [present, found]
    cases phase : before.stream.phase with
    | starting | listing | sleeping | raised => simp only [StreamRun.Prompt, phase]
    | checking cursor =>
      simp only [StreamRun.Prompt, phase] at prompt ⊢
      refine (active_or_terminal run.status).resolve_right fun terminal => ?_
      have former := watched (by simp [StreamRun.Watching, phase]) terminal
      exact AgentRun.not_active_of_terminal terminal (prompt run former)
    | paused cursor event rest =>
      simp only [StreamRun.Prompt, phase] at prompt ⊢
      intro terminal
      exact prompt run (watched (by simp [StreamRun.Watching, phase]) terminal) terminal
    | returned =>
      simp only [StreamRun.Prompt, phase] at prompt ⊢
      rcases tracks.reads with ⟨starting, _⟩ | ⟨error, failed⟩ | ⟨former, _, present, _, _⟩
      · rw [phase] at starting
        contradiction
      · rw [phase] at failed
        contradiction
      · exact prompt former present

theorem step_same (taken : Steps before label after) :
    after.stream.runId = before.stream.runId ∧
      after.stream.afterSequence = before.stream.afterSequence := by
  cases label with
  | resume => exact StreamRun.resume_same (next_resume taken).1
  | call ambient operation =>
    obtain ⟨_, _, _, same⟩ := next_call taken
    rw [same]
    exact ⟨rfl, rfl⟩

theorem run_same (run : Run Steps origin labels state) :
    state.stream.runId = origin.stream.runId ∧
      state.stream.afterSequence = origin.stream.afterSequence := by
  induction run with
  | nil => exact ⟨rfl, rfl⟩
  | snoc earlier taken ih =>
    obtain ⟨sameId, sameOrigin⟩ := step_same taken
    exact ⟨sameId.trans ih.1, sameOrigin.trans ih.2⟩

theorem step_log_grows (taken : Steps before label after) (tracks : Tracks before)
    (read : before.store.events.get? ref = some log) :
    ∃ more, after.store.events.get? ref = some (log ++ more) := by
  cases label with
  | resume =>
    rw [(next_resume taken).2]
    exact ⟨[], by simpa using read⟩
  | call ambient operation =>
    obtain ⟨reply, answers, streams, _⟩ := next_call taken
    exact Answers.log_grows answers tracks.coherent streams.retains read

theorem run_prompt (execution : Run Steps (start runId afterSequence) labels state)
    (calm : ¬ Raced (start runId afterSequence) labels)
    (beyond : ∀ {log}, state.store.events.get? runId = some log →
      ∀ event ∈ log, event.Ends → afterSequence < event.sequence)
    (found : state.store.runs.get? runId = some run) : state.stream.Prompt run := by
  generalize origin : start runId afterSequence = first at execution calm
  induction execution generalizing run with
  | nil =>
    subst origin
    trivial
  | @snoc labels middle label final earlier taken ih =>
    subst origin
    have tracks := run_tracks earlier
    obtain ⟨sameId, sameOrigin⟩ := run_same earlier
    simp only [start, StreamRun.start] at sameId sameOrigin
    refine Steps.prompt taken tracks ?_ ?_ ?_ (sameId ▸ found)
    · intro races
      exact calm ⟨labels, label, [], middle, final, rfl, earlier, taken, races⟩
    · rw [sameId, sameOrigin]
      exact beyond
    · rw [sameId]
      intro former present
      refine ih ?_ present (fun raced => calm (raced.snoc label))
      intro log read event member
      obtain ⟨more, grown⟩ := step_log_grows taken tracks read
      exact beyond grown event (List.mem_append_left _ member)

/-- After a race the stream can only end without the terminal event. -/
structure Lost (state : StreamSystem) : Prop where
  ended : ∃ run, state.store.runs.get? state.stream.runId = some run ∧ run.Terminal
  blind : Blind state.stream

private theorem Races.lost (races : Races before after) (tracks : Tracks before)
    (taken : Steps before label after) : Lost after := by
  obtain ⟨watching, ⟨run, found, active⟩, finished⟩ := races
  cases label with
  | resume =>
    -- Resuming the stream does not end the run.
    obtain ⟨_, same⟩ := next_resume taken
    obtain ⟨other, present, terminal⟩ := finished
    rw [same, found] at present
    cases present
    exact (AgentRun.not_active_of_terminal terminal active).elim
  | call ambient operation =>
    obtain ⟨reply, answers, _, same⟩ := next_call taken
    refine ⟨by rw [same]; exact finished, ?_⟩
    rw [same]
    rcases tracks.reads with ⟨starting, _⟩ | ⟨error, failed⟩ | ⟨former, log, present, read, reading⟩
    · simp [StreamRun.Watching, starting] at watching
    · simp [StreamRun.Watching, failed] at watching
    · exact reading.blind watching ((tracks.sound.agrees found read).unended active)

private theorem Lost.step (lost : Lost before) (tracks : Tracks before)
    (taken : Steps before label after) : Lost after := by
  obtain ⟨⟨run, found, terminal⟩, blind⟩ := lost
  cases label with
  | call ambient operation =>
    obtain ⟨reply, answers, _, same⟩ := next_call taken
    refine ⟨⟨run, ?_, terminal⟩, ?_⟩ <;> rw [same]
    · exact Answers.terminal answers tracks.coherent found terminal
    · exact blind
  | resume =>
    obtain ⟨resumed, sameStore⟩ := next_resume taken
    obtain ⟨sameId, _⟩ := StreamRun.resume_same resumed
    exact ⟨⟨run, by rw [sameStore, sameId]; exact found, terminal⟩,
      blind.resume found terminal resumed⟩

private theorem run_lost (raced : Raced (start runId afterSequence) labels)
    (execution : Run Steps (start runId afterSequence) labels state) : Lost state := by
  obtain ⟨earlier, label, later, before, after, rfl, first, taken, races⟩ := raced
  obtain ⟨other, next, second, again, rest⟩ := execution.around
  obtain rfl := Run.deterministic first second
  obtain rfl : after = next := Option.some.inj (taken.symm.trans again)
  have tracks := run_tracks first
  have preserved : ∀ {before label after}, Tracks before ∧ Lost before →
      Steps before label after → Tracks after ∧ Lost after :=
    fun former step => ⟨former.1.step step, former.2.step former.1 step⟩
  exact (rest.invariant ⟨tracks.step taken, races.lost tracks taken⟩ preserved).2

/-- A stream that returns normally has delivered its run completely if and only if
the run did not end between a listing and the status check that followed it. -/
theorem stream_complete_iff
    (execution : Run Steps (start runId afterSequence) labels state)
    (returned : state.stream.phase = .returned)
    (read : state.store.events.get? runId = some log) (member : last ∈ log) (ends : last.Ends)
    (beyond : afterSequence < last.sequence) :
    Complete log afterSequence last state.stream.yielded ↔
      ¬ Raced (start runId afterSequence) labels := by
  have tracks := run_tracks execution
  obtain ⟨sameId, sameOrigin⟩ := run_same execution
  simp only [start, StreamRun.start] at sameId sameOrigin
  obtain ⟨run, found⟩ := tracks.coherent.runOf read
  have sound := tracks.sound.agrees found read
  constructor
  · intro complete raced
    refine (run_lost raced execution).blind.quiet last ?_ ends
    rw [complete.exact, List.mem_filter]
    exact ⟨member, by simpa using beyond⟩
  · intro calm
    have seen : ∃ ending ∈ state.stream.yielded, ending.Ends := by
      have prompt := run_prompt execution calm ?_ found
      · simpa only [StreamRun.Prompt, returned] using prompt
      · intro other logged event present eventEnds
        rw [read] at logged
        cases logged
        rw [sound.ending_unique present member eventEnds ends]
        exact beyond
    rcases tracks.reads with ⟨starting, _⟩ | ⟨error, failed⟩ | ⟨_, events, _, logged, reading⟩
    · rw [returned] at starting
      contradiction
    · rw [returned] at failed
      contradiction
    · rw [sameId, read] at logged
      cases logged
      rw [returned, sameOrigin] at reading
      exact Reading.complete sound member ends reading seen

/-- A stream that lists the log before the commit and checks the run after it. -/
def racingSchedule : List StreamLabel :=
  (sampleTurn.take 3).map (fun (ambient, operation) => .call ambient operation) ++
    [.resume, .resume, .resume] ++
    (sampleTurn.drop 3).map (fun (ambient, operation) => .call ambient operation) ++ [.resume]

/-- The sample turn is committed after the stream has yielded `run.started` and
before it checks the status, so the stream ends without the terminal event. -/
theorem racingSchedule_run : ∃ state log last,
    Run Steps (start "run" 0) racingSchedule state ∧ state.stream.phase = .returned ∧
      state.store.events.get? "run" = some log ∧ last ∈ log ∧ last.Ends ∧ 0 < last.sequence ∧
      ¬ Complete log 0 last state.stream.yielded := by
  have reached : ∃ state, follow next (start "run" 0) racingSchedule = some state := ⟨_, rfl⟩
  obtain ⟨state, followed⟩ := reached
  have execution := follow_run followed
  cases followed
  refine ⟨_, _, _, execution, rfl, rfl, List.mem_cons_of_mem _ (List.mem_singleton_self _),
    by decide, by decide, ?_⟩
  intro complete
  exact absurd (congrArg (Option.map StreamEvent.type) complete.ending) (by decide)

theorem stream_complete_iff_racingSchedule : Raced (start "run" 0) racingSchedule := by
  obtain ⟨state, log, last, execution, returned, read, member, ends, beyond, incomplete⟩ :=
    racingSchedule_run
  by_contra calm
  exact incomplete ((stream_complete_iff execution returned read member ends beyond).mpr calm)

theorem stream_incomplete : ¬ ∀ (runId : String) (afterSequence : Nat) labels state log last,
    Run Steps (start runId afterSequence) labels state → state.stream.phase = .returned →
    state.store.events.get? runId = some log → last ∈ log → last.Ends →
    afterSequence < last.sequence → Complete log afterSequence last state.stream.yielded := by
  intro claimed
  obtain ⟨state, log, last, execution, returned, read, member, ends, beyond, incomplete⟩ :=
    racingSchedule_run
  exact incomplete (claimed _ _ _ _ _ _ execution returned read member ends beyond)

end StreamSystem

end DayuAgent
