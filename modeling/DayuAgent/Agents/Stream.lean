import DayuAgent.Memory.EventLog

/-! The event stream of one run: `stream_run` reads the log and the status of the
run in separate store calls and hands control to its consumer at every yield. -/

namespace DayuAgent

open Library InMemorySessionStore

/-- Where `stream_run` stands between two store calls or at a yield. -/
inductive StreamPhase where
  | starting
  | listing (cursor : Nat)
  | paused (cursor : Nat) (event : StreamEvent) (rest : List StreamEvent)
  | checking (cursor : Nat)
  | sleeping (cursor : Nat)
  | returned
  | raised (error : PyException)

/-- One call of `stream_run` with the events it has yielded. -/
structure StreamRun where
  runId : String
  afterSequence : Nat
  phase : StreamPhase
  yielded : List StreamEvent

namespace StreamRun

def start (runId : String) (afterSequence : Nat) : StreamRun :=
  { runId, afterSequence, phase := .starting, yielded := [] }

/-- The `for` loop over listed events, up to its next yield or to its end. -/
def deliver (stream : StreamRun) (cursor : Nat) : List StreamEvent → StreamRun
  | [] => { stream with phase := .checking cursor }
  | event :: rest =>
    { stream with
      phase := .paused event.sequence event rest, yielded := stream.yielded ++ [event] }

/-- Resume the stream until its next store call, yield, sleep or end. -/
def resume (stream : StreamRun) (store : InMemorySessionStore) : Option StreamRun :=
  match stream.phase with
  | .starting =>
    match (getRun stream.runId store).1 with
    | .ok _ => some { stream with phase := .listing stream.afterSequence }
    | .error error => some { stream with phase := .raised error }
  | .listing cursor =>
    match (listStreamEvents stream.runId cursor store).1 with
    | .ok events => some (stream.deliver cursor events)
    | .error error => some { stream with phase := .raised error }
  | .paused cursor event rest =>
    if event.type ∈ terminalEventTypes then some { stream with phase := .returned }
    else some (stream.deliver cursor rest)
  | .checking cursor =>
    match (getRun stream.runId store).1 with
    | .ok run =>
      if run.status ∈ terminalRunStatuses then some { stream with phase := .returned }
      else some { stream with phase := .sleeping cursor }
    | .error error => some { stream with phase := .raised error }
  | .sleeping cursor => some { stream with phase := .listing cursor }
  | .returned | .raised _ => none

end StreamRun

/-- The stream has yielded the log from its origin up to a cursor. -/
structure Caught (log : List StreamEvent) (origin cursor : Nat) (yielded : List StreamEvent) :
    Prop where
  ahead : origin ≤ cursor
  inside : cursor = origin ∨ cursor ≤ log.length
  exact : yielded = (log.take cursor).drop origin
  quiet : ∀ event ∈ yielded, ¬ event.Ends

namespace Caught

theorem start (log : List StreamEvent) (origin : Nat) : Caught log origin origin [] :=
  ⟨Nat.le_refl _, .inl rfl, by simp, by simp⟩

/-- Later events do not disturb what was read. -/
theorem grow (caught : Caught log origin cursor yielded) (more : List StreamEvent) :
    Caught (log ++ more) origin cursor yielded := by
  refine ⟨caught.ahead, ?_, ?_, caught.quiet⟩
  · rcases caught.inside with same | inside
    · exact .inl same
    · exact .inr (by simp only [List.length_append]; omega)
  · rcases caught.inside with rfl | inside
    · rw [caught.exact]
      simp
    · rw [caught.exact, List.take_append_of_le_length inside]

theorem advance (caught : Caught log origin cursor yielded) (here : log[cursor]? = some event)
    (quiet : ¬ event.Ends) : Caught log origin (cursor + 1) (yielded ++ [event]) := by
  have inside := (List.getElem?_eq_some_iff.mp here).1
  refine ⟨by have := caught.ahead; omega, .inr inside, ?_, ?_⟩
  · rw [List.take_add_one, here, Option.toList_some,
      List.drop_append_of_le_length (by have := caught.ahead; simp; omega), caught.exact]
  · intro other member
    rcases List.mem_append.mp member with old | new
    · exact caught.quiet other old
    · cases List.mem_singleton.mp new
      exact quiet

/-- A terminal event beyond a caught-up cursor is in the rest of the log. -/
theorem mem_rest (caught : Caught log origin cursor yielded)
    (numbered : log.map (·.sequence) = List.range' 1 log.length) (member : ending ∈ log)
    (ends : ending.Ends) (beyond : origin < ending.sequence) : ending ∈ log.drop cursor := by
  obtain ⟨index, here⟩ := List.mem_iff_getElem?.mp member
  have named := sequence_at numbered here
  by_cases passed : cursor ≤ index
  · exact List.mem_iff_getElem?.mpr ⟨index - cursor, by
      rw [List.getElem?_drop, Nat.add_sub_cancel' passed, here]⟩
  · have read : ending ∈ yielded := by
      rw [caught.exact]
      refine List.mem_iff_getElem?.mpr ⟨index - origin, ?_⟩
      rw [List.getElem?_drop, Nat.add_sub_cancel' (by omega),
        List.getElem?_take_of_lt (by omega), here]
    exact (caught.quiet ending read ends).elim

end Caught

/-- What each phase of a stream knows about the current log. -/
def Reading (log : List StreamEvent) (origin : Nat) (yielded : List StreamEvent) :
    StreamPhase → Prop
  | .starting => yielded = []
  | .listing cursor | .checking cursor | .sleeping cursor => Caught log origin cursor yielded
  | .paused cursor event rest => ∃ index bound before, cursor = index + 1 ∧
      log[index]? = some event ∧ Caught log origin index before ∧ yielded = before ++ [event] ∧
      bound ≤ log.length ∧ rest = (log.take bound).drop cursor
  | .returned => (∃ index event before, log[index]? = some event ∧ event.Ends ∧
      Caught log origin index before ∧ yielded = before ++ [event]) ∨
      ∀ event ∈ yielded, ¬ event.Ends
  | .raised _ => True

theorem Reading.grow (reading : Reading log origin yielded phase) (more : List StreamEvent) :
    Reading (log ++ more) origin yielded phase := by
  have kept : ∀ {index : Nat} {event}, log[index]? = some event →
      (log ++ more)[index]? = some event := by
    intro index event here
    rw [List.getElem?_append_left (List.getElem?_eq_some_iff.mp here).1, here]
  cases phase with
  | starting | raised => exact reading
  | listing cursor | checking cursor | sleeping cursor => exact Caught.grow reading more
  | paused cursor event rest =>
    obtain ⟨index, bound, before, next, here, caught, same, inside, remaining⟩ := reading
    exact ⟨index, bound, before, next, kept here, caught.grow more, same,
      by simp only [List.length_append]; omega,
      by rw [remaining, List.take_append_of_le_length inside]⟩
  | returned =>
    rcases reading with ⟨index, event, before, here, ends, caught, same⟩ | quiet
    · exact .inl ⟨index, event, before, kept here, ends, caught.grow more, same⟩
    · exact .inr quiet

namespace StreamRun

variable {store : InMemorySessionStore} {stream : StreamRun}

@[simp] theorem deliver_runId (cursor : Nat) (events : List StreamEvent) :
    (stream.deliver cursor events).runId = stream.runId := by cases events <;> rfl

@[simp] theorem deliver_afterSequence (cursor : Nat) (events : List StreamEvent) :
    (stream.deliver cursor events).afterSequence = stream.afterSequence := by
  cases events <;> rfl

theorem resume_same (resumed : stream.resume store = some after) :
    after.runId = stream.runId ∧ after.afterSequence = stream.afterSequence := by
  simp only [resume] at resumed
  split at resumed
  · split at resumed <;> cases resumed <;> exact ⟨rfl, rfl⟩
  · split at resumed <;> cases resumed <;> simp
  · split at resumed <;> cases resumed <;> simp
  · split at resumed
    · split at resumed <;> cases resumed <;> exact ⟨rfl, rfl⟩
    · cases resumed
      exact ⟨rfl, rfl⟩
  · cases resumed
    exact ⟨rfl, rfl⟩
  · contradiction
  · contradiction

/-- Delivering the listed tail of the log keeps the stream in step with it. -/
theorem deliver_reading
    (numbered : log.map (·.sequence) = List.range' 1 log.length)
    (caught : Caught log origin cursor stream.yielded) (inside : bound ≤ log.length) :
    Reading log origin (stream.deliver cursor ((log.take bound).drop cursor)).yielded
      (stream.deliver cursor ((log.take bound).drop cursor)).phase := by
  cases pending : (log.take bound).drop cursor with
  | nil => exact caught
  | cons event rest =>
    have short : cursor < (log.take bound).length := by
      by_contra long
      rw [List.drop_eq_nil_of_le (by omega)] at pending
      contradiction
    rw [List.drop_eq_getElem_cons short] at pending
    injection pending with head tail
    have within : cursor < log.length := by
      simp only [List.length_take] at short
      omega
    have here : log[cursor]? = some event := by
      rw [← head, List.getElem_take, List.getElem?_eq_getElem within]
    have named : event.sequence = cursor + 1 := sequence_at numbered here
    exact ⟨cursor, bound, stream.yielded, named, here, caught, rfl, inside,
      by rw [named, tail]⟩

theorem resume_reading (sound : SoundLogs store)
    (found : store.runs.get? stream.runId = some run)
    (read : store.events.get? stream.runId = some log)
    (reading : Reading log stream.afterSequence stream.yielded stream.phase)
    (resumed : stream.resume store = some after) :
    Reading log stream.afterSequence after.yielded after.phase := by
  have numbered := (sound.agrees found read).numbered
  simp only [resume] at resumed
  split at resumed
  · next starting =>
    rw [starting] at reading
    rw [getRun, runLocked_ok found] at resumed
    cases resumed
    have none : stream.yielded = [] := reading
    simp only [none]
    exact Caught.start log stream.afterSequence
  · next cursor listing =>
    rw [listing] at reading
    rw [listStreamEvents_ok found read, filter_numbered_tail numbered] at resumed
    cases resumed
    simpa using deliver_reading numbered reading (Nat.le_refl _)
  · next cursor event rest paused =>
    rw [paused] at reading
    obtain ⟨index, bound, before, rfl, here, caught, same, inside, rfl⟩ := reading
    split at resumed
    · next ends =>
      cases resumed
      exact .inl ⟨index, event, before, here, ends, caught, same⟩
    · next quiet =>
      cases resumed
      have further := caught.advance here quiet
      rw [← same] at further
      exact deliver_reading numbered further inside
  · next cursor checking =>
    rw [checking] at reading
    rw [getRun, runLocked_ok found] at resumed
    simp only at resumed
    split at resumed
    · cases resumed
      exact .inr reading.quiet
    · cases resumed
      exact reading
  · next cursor sleeping =>
    rw [sleeping] at reading
    cases resumed
    exact reading
  · contradiction
  · contradiction

/-- Between a listing and the status check that follows it. -/
def Watching (stream : StreamRun) : Prop :=
  match stream.phase with
  | .paused _ _ _ | .checking _ => True
  | _ => False

/-- While no race has happened, a stream past its listing will see the end. -/
def Prompt (stream : StreamRun) (run : AgentRun) : Prop :=
  match stream.phase with
  | .checking _ => run.Active
  | .paused _ event rest => run.Terminal → ∃ ending ∈ event :: rest, ending.Ends
  | .returned => ∃ ending ∈ stream.yielded, ending.Ends
  | _ => True

theorem deliver_prompt {events : List StreamEvent} (stream : StreamRun) (run : AgentRun)
    (cursor : Nat)
    (pending : run.Terminal → ∃ ending ∈ events, ending.Ends) :
    Prompt (stream.deliver cursor events) run := by
  cases events with
  | nil =>
    refine (active_or_terminal run.status).resolve_right fun terminal => ?_
    obtain ⟨_, member, _⟩ := pending terminal
    simp at member
  | cons event rest => exact pending

end StreamRun

/-- The stream neither has seen a terminal event nor holds one to deliver. -/
structure Blind (stream : StreamRun) : Prop where
  quiet : ∀ event ∈ stream.yielded, ¬ event.Ends
  pending : match stream.phase with
    | .paused _ event rest => ∀ other ∈ event :: rest, ¬ other.Ends
    | .checking _ | .returned => True
    | _ => False

/-- What a stream watches was read from the log. -/
theorem Reading.blind {stream : StreamRun} (watching : stream.Watching)
    (reading : Reading log origin stream.yielded stream.phase)
    (unended : ∀ event ∈ log, ¬ event.Ends) : Blind stream := by
  cases phase : stream.phase with
  | starting | listing | sleeping | raised | returned =>
    simp [StreamRun.Watching, phase] at watching
  | checking cursor =>
    rw [phase] at reading
    exact ⟨reading.quiet, by simp only [phase]⟩
  | paused cursor event rest =>
    rw [phase] at reading
    obtain ⟨index, bound, before, _, here, caught, yields, _, rfl⟩ := reading
    have quiet := unended event (List.mem_of_getElem? here)
    refine ⟨?_, ?_⟩
    · rw [yields]
      exact (caught.advance here quiet).quiet
    · simp only [phase]
      intro other member
      rcases List.mem_cons.mp member with rfl | later
      · exact quiet
      · exact unended other (List.mem_of_mem_take (List.mem_of_mem_drop later))

theorem Blind.resume {store : InMemorySessionStore} {stream next : StreamRun} (blind : Blind stream)
    (found : store.runs.get? stream.runId = some run) (terminal : run.Terminal)
    (resumed : stream.resume store = some next) : Blind next := by
  obtain ⟨quiet, pending⟩ := blind
  cases phase : stream.phase with
  | starting | listing | sleeping | raised => simp [phase] at pending
  | returned =>
    simp only [StreamRun.resume, phase] at resumed
    contradiction
  | checking cursor =>
    have ended : run.status ∈ terminalRunStatuses := terminal
    simp only [StreamRun.resume, phase, getRun, runLocked_ok found, if_pos ended] at resumed
    cases resumed
    exact ⟨quiet, trivial⟩
  | paused cursor event rest =>
    simp only [phase] at pending
    have middle : event.type ∉ terminalEventTypes := pending event (by simp)
    simp only [StreamRun.resume, phase, if_neg middle] at resumed
    cases resumed
    cases rest with
    | nil => exact ⟨quiet, trivial⟩
    | cons first others =>
      refine ⟨?_, fun other member => pending other (List.mem_cons_of_mem _ member)⟩
      intro other member
      rcases List.mem_append.mp member with old | new
      · exact quiet other old
      · cases List.mem_singleton.mp new
        exact pending first (by simp)

/-- The stream has delivered the log after its origin up to the terminal event. -/
structure Complete (log : List StreamEvent) (origin : Nat) (last : StreamEvent)
    (yielded : List StreamEvent) : Prop where
  exact : yielded =
    log.filter fun event => origin < event.sequence ∧ event.sequence ≤ last.sequence
  ordered : yielded.Pairwise fun first second => first.sequence < second.sequence
  ending : yielded.getLast? = some last

/-- A stream that has yielded a terminal event has delivered everything up to it. -/
theorem Reading.complete (sound : SoundLog run log) (member : last ∈ log) (ends : last.Ends)
    (reading : Reading log origin yielded .returned) (seen : ∃ ending ∈ yielded, ending.Ends) :
    Complete log origin last yielded := by
  rcases reading with ⟨index, event, before, here, eventEnds, caught, same⟩ | quiet
  · obtain rfl := sound.ending_unique (List.mem_of_getElem? here) member eventEnds ends
    have named := sequence_at sound.numbered here
    have exact : yielded = log.filter fun other =>
        origin < other.sequence ∧ other.sequence ≤ event.sequence := by
      have inside := (List.getElem?_eq_some_iff.mp here).1
      have ahead := caught.ahead
      rw [filter_numbered 0 sound.numbered, named, same, caught.exact, Nat.sub_zero, Nat.sub_zero,
        List.take_add_one, here, Option.toList_some,
        List.drop_append_of_le_length (by simp only [List.length_take]; omega)]
    refine ⟨exact, ?_, by simp [same]⟩
    rw [exact]
    exact (numbered_ordered sound.numbered).filter _
  · obtain ⟨ending, present, endingEnds⟩ := seen
    exact (quiet ending present endingEnds).elim

end DayuAgent
