import DayuAgent.Memory.EventLog
import DayuAgent.Memory.Transcript

namespace DayuAgent

open Library InMemorySessionStore

/-- Operations that empty the transcript of the session or remove events. -/
def Operation.Discards (operation : Operation) (sessionId : String) : Prop :=
  match operation with
  | .clearSession own => own = sessionId
  | .pruneStreamEvents _ => True
  | _ => False

instance (operation : Operation) (sessionId : String) :
    Decidable (operation.Discards sessionId) := by
  unfold Operation.Discards
  split <;> infer_instance

/-- Operations that publish nothing by hand but deltas. -/
def Operation.Publishes : Operation → Prop
  | .appendStreamEvent _ type _ => type = .responseDelta
  | _ => True

def Effect.Publishes : Effect → Prop
  | .emitted _ event => event.type = .responseDelta
  | _ => True

theorem makes_publishes (makes : Makes operation reply effects) (publishes : operation.Publishes) :
    ∀ effect ∈ effects, effect.Publishes := by
  intro effect member
  have origin := makes.origin member
  cases effect with
  | emitted =>
    obtain ⟨_, rfl⟩ := origin
    exact publishes
  | _ => trivial

/-- What closes a run with a result says this result. -/
def Told (record : AgentRun) (log : List StreamEvent) : Prop :=
  ∀ event ∈ log, event.type = .responseCompleted → record.status = .completed ∧
    ∃ result, record.result = some result ∧ event.payload = [("result", .obj result)]

theorem Told.unended (told : Told record log) (open' : record.status ≠ .completed) :
    ∀ event ∈ log, event.type ≠ .responseCompleted :=
  fun event member closing => open' (told event member closing).1

private theorem told_narrates : Narrates (· = .responseDelta) Told where
  reserved _ _ _ event member := by simp at member
  attempted told active event member closing := by
    exact (told.unended (not_completed_of_active active) event member closing).elim
  emitted told delta event member closing := by
    rcases List.mem_append.mp member with old | new
    · exact told event old closing
    · rw [List.mem_singleton.mp new, nextEvent, delta] at closing
      contradiction
  moved told change event member closing := by
    rcases List.mem_append.mp member with old | new
    · exact (told.unended (not_completed_of_active change.active) event old closing).elim
    · rw [List.mem_singleton.mp new] at closing
      cases change <;> contradiction
  committed request completed told running event member closing := by
    rcases List.mem_append.mp member with old | new
    · exact (told.unended (by simp [running]) event old closing).elim
    · rw [List.mem_singleton.mp new]
      exact ⟨rfl, _, rfl, rfl⟩

theorem Edit.told (edit : Edit store effect after) (coherent : Coherent store)
    (publishes : effect.Publishes) (logged : Logged Told store) : Logged Told after := by
  by_cases emits : effect.Emits (· = .responseDelta)
  · exact edit.logged coherent told_narrates emits logged
  · cases edit with
    | @prune run log found terminal read before =>
      refine logged.replace run.id ?_ found (Dict.get?_set_self _ _ _) ?_
      · intro ref different
        exact ⟨rfl, Dict.get?_set_ne _ _ different⟩
      · intro event member
        exact logged.agrees found read event (List.mem_of_mem_filter member)
    | emit => exact (emits publishes).elim
    | _ => exact (emits trivial).elim

/-- The committed result of a run, wherever the store shows it. -/
structure Fulfilled (store : InMemorySessionStore) (ref : String) (result : AgentResult) :
    Prop where
  record : ∃ record, store.runs.get? ref = some record ∧ record.status = .completed ∧
    record.result = some result.modelDump ∧
    ∃ transcript request, store.messages.get? record.sessionId = some transcript ∧
      Turn transcript ref request ∧ request.assistantContent = result.content
  event : ∃ log, store.events.get? ref = some log ∧ ∃ event ∈ log,
    event.type = .responseCompleted ∧ event.payload = [("result", .obj result.modelDump)]

/-- A turn survives whatever does not empty its transcript. -/
theorem Edit.turn_kept (edit : Edit store effect after) (coherent : Coherent store)
    (found : store.runs.get? ref = some record) (terminal : record.Terminal)
    (read : store.messages.get? record.sessionId = some transcript)
    (turn : Turn transcript ref request) (kept : effect ≠ .cleared record.sessionId) :
    ∃ later, after.messages.get? record.sessionId = some later ∧ Turn later ref request := by
  cases edit with
  | ready | attempt | emit | move | prune | reserve => exact ⟨transcript, read, turn⟩
  | openSession opened absent =>
    refine ⟨transcript, (Dict.get?_set_ne _ _ ?_).trans read, turn⟩
    intro own
    have present := coherent.runSession found
    rw [own, absent] at present
    contradiction
  | @say session history message opened before idle unbound next now =>
    by_cases own : record.sessionId = session.id
    · rw [own, before] at read
      cases read
      refine ⟨transcript ++ [message], ?_, turn.append (by simp [unbound])⟩
      rw [own]
      exact Dict.get?_set_self _ _ _
    · exact ⟨transcript, (Dict.get?_set_ne _ _ own).trans read, turn⟩
  | clear =>
    refine ⟨transcript, (Dict.get?_set_ne _ _ ?_).trans read, turn⟩
    intro own
    exact kept (own ▸ rfl)
  | @commit run session history log present running opened own before logged other ambient =>
    have different : ref ≠ run.id := by
      rintro rfl
      rw [found] at present
      cases present
      simp [AgentRun.Terminal, running, terminalRunStatuses] at terminal
    by_cases same : record.sessionId = session.id
    · rw [same, before] at read
      cases read
      refine ⟨transcript ++ turnMessages run other (transcript.length + 1) ambient, ?_, ?_⟩
      · rw [withTurn_messages, same, Dict.get?_set_self]
      · refine turn.append ?_
        intro message member
        rw [turnMessages_runId member]
        simpa using Ne.symm different
    · refine ⟨transcript, ?_, turn⟩
      rw [withTurn_messages, Dict.get?_set_ne _ _ same, read]

/-- No edit but pruning removes an event. -/
theorem Edit.event_kept (edit : Edit store effect after) (coherent : Coherent store)
    (read : store.events.get? ref = some log) (member : event ∈ log)
    (kept : ∀ before, effect ≠ .pruned ref before) :
    ∃ later, after.events.get? ref = some later ∧ event ∈ later := by
  by_cases emits : effect.Emits fun _ => True
  · obtain ⟨more, grown⟩ := edit.log_grows coherent emits read
    exact ⟨log ++ more, grown, List.mem_append_left _ member⟩
  · cases edit with
    | @prune run other found terminal present before =>
      refine ⟨log, (Dict.get?_set_ne _ _ ?_).trans read, member⟩
      rintro rfl
      exact kept before rfl
    | _ => exact (emits trivial).elim

private theorem Edit.fulfilled (edit : Edit store effect after) (coherent : Coherent store)
    (fulfilled : Fulfilled store ref result) (found : store.runs.get? ref = some record)
    (transcript : effect ≠ .cleared record.sessionId)
    (log : ∀ before, effect ≠ .pruned ref before) : Fulfilled after ref result := by
  obtain ⟨⟨own, present, completed, stored, history, request, read, turn, content⟩,
    events, logged, event, member, published⟩ := fulfilled
  rw [found] at present
  cases present
  have terminal : record.Terminal := by simp [AgentRun.Terminal, completed, terminalRunStatuses]
  obtain ⟨later, kept, again⟩ := edit.turn_kept coherent found terminal read turn transcript
  obtain ⟨grown, still, further⟩ := edit.event_kept coherent logged member log
  exact ⟨⟨record, edit.terminal found terminal, completed, stored, later, request, kept, again,
    content⟩, grown, still, event, further, published⟩

namespace InMemorySessionStore

variable {store after : InMemorySessionStore}

/-- A call that discards nothing of the session leaves a fulfilled result fulfilled. -/
theorem Refines.fulfilled (refines : Refines store operation reply after)
    (coherent : Coherent store) (fulfilled : Fulfilled store ref result)
    (found : store.runs.get? ref = some record) (keeps : ¬ operation.Discards record.sessionId) :
    Fulfilled after ref result := by
  obtain ⟨effects, edits, makes⟩ := refines
  have each : ∀ effect ∈ effects, effect ≠ .cleared record.sessionId ∧
      ∀ before, effect ≠ .pruned ref before := by
    intro effect member
    constructor
    · rintro rfl
      obtain ⟨rfl, _⟩ := (makes_cleared makes).mp member
      exact keeps rfl
    · rintro before rfl
      obtain rfl : operation = .pruneStreamEvents _ := makes.origin member
      exact keeps trivial
  have terminal : record.Terminal := by
    obtain ⟨own, present, completed, _⟩ := fulfilled.record
    rw [found] at present
    cases present
    simp [AgentRun.Terminal, completed, terminalRunStatuses]
  clear makes
  have holds : store.runs.get? ref = some record ∧ Fulfilled store ref result := ⟨found, fulfilled⟩
  suffices after.runs.get? ref = some record ∧ Fulfilled after ref result from this.2
  induction edits with
  | nil => exact holds
  | snoc earlier edit ih =>
    obtain ⟨present, still⟩ := ih fun effect member => each effect (List.mem_append_left _ member)
    obtain ⟨transcript, log⟩ := each _ (List.mem_append_right _ (List.mem_singleton_self _))
    exact ⟨edit.terminal present terminal,
      edit.fulfilled (edits_coherent earlier coherent) still present transcript log⟩

/-- Only the commit of a run completes it. -/
theorem Refines.completes (refines : Refines store operation reply after)
    (completed : after.CompletedIn ref sessionId) :
    store.CompletedIn ref sessionId ∨ ∃ request, operation = .commitRunSuccess ref request := by
  obtain ⟨effects, edits, makes⟩ := refines
  by_cases commits : ∃ request, .committed ref request ∈ effects
  · obtain ⟨request, member⟩ := commits
    exact .inr ⟨request, ((makes_committed makes).mp member).1⟩
  · left
    clear makes
    induction edits with
    | nil => exact completed
    | @snoc effects middle effect final earlier edit ih =>
      have silent : ¬ ∃ request, .committed ref request ∈ effects :=
        fun ⟨request, member⟩ => commits ⟨request, List.mem_append_left _ member⟩
      refine ih ?_ silent
      by_cases other : ∀ own request, effect ≠ .committed own request
      · exact (edit.completedIn_iff other ref sessionId).mp completed
      · simp only [ne_eq, not_forall, not_not] at other
        obtain ⟨own, request, rfl⟩ := other
        cases edit with
        | commit found running session own transcript read request ambient =>
          rcases (withTurn_completedIn found running own _ _ request ambient ref sessionId).mp
            completed with ⟨same, _⟩ | former
          · exact (commits ⟨request, by simp [same]⟩).elim
          · exact former

/-- A commit that is answered fulfils its result. -/
theorem commitRunSuccess_fulfils (coherent : Coherent store) (request : CommitRunRequest)
    (foreign : ∀ sessionId transcript, store.messages.get? sessionId = some transcript →
      ∀ message ∈ transcript, message.runId = some ref → store.CompletedIn ref sessionId)
    (said : request.assistantContent = request.result.content)
    (answered : ((Operation.commitRunSuccess ref request).perform ambient store).1 = .ok reply) :
    Fulfilled ((Operation.commitRunSuccess ref request).perform ambient store).2 ref
      request.result := by
  rw [Operation.perform, wrap_apply] at answered ⊢
  rcases commitRunSuccess_cases coherent ref request ambient with
    ⟨_, answer⟩ | ⟨_, _, _, answer⟩ |
    ⟨run, record, history, log, found, rfl, running, opened, own, read, logged, answer⟩ <;>
  rw [answer] at answered ⊢
  · contradiction
  · contradiction
  · have apart : ∀ message ∈ history, message.runId ≠ some run.id := by
      intro message member bound
      obtain ⟨other, present, completed, _⟩ := foreign _ history read message member bound
      rw [found] at present
      cases present
      rw [running] at completed
      contradiction
    refine ⟨⟨completedRun run request (ambient.utcNow 2), Dict.get?_set_self _ _ _, rfl, rfl,
      history ++ turnMessages run request (history.length + 1) ambient, request, ?_,
      .ofCommit run request _ ambient apart, said⟩, _, Dict.get?_set_self _ _ _,
      nextEvent log run.id .responseCompleted [("result", .obj request.result.modelDump)]
        (ambient.uuid4 2) (ambient.utcNow 3), by simp, rfl, rfl⟩
    change (store.messages.set record.id _).get? run.sessionId = _
    rw [own, Dict.get?_set_self]

end InMemorySessionStore

end DayuAgent
