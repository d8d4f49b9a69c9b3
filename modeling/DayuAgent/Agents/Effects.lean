import DayuAgent.Agents.Acts

namespace DayuAgent

open Library InMemorySessionStore

variable {store after : InMemorySessionStore} {ambient : Ambient}

/-- Skipping locked rows matters to the two sweeps only. -/
def Operation.Sweeps : Operation → Prop
  | .interruptWorkerRuns _ | .reconcileOrphanedRuns _ => True
  | _ => False

namespace Operation

theorem performSkipping_plain {operation : Operation} (other : ¬ operation.Sweeps)
    (skipped : List String) (ambient : Ambient) :
    operation.performSkipping skipped ambient = operation.perform ambient := by
  cases operation with
  | interruptWorkerRuns | reconcileOrphanedRuns => exact (other trivial).elim
  | _ => rfl

theorem performSkipping_refines (operation : Operation) (coherent : Coherent store)
    (fresh : ambient.Fresh store) (skipped : List String) :
    Refines store operation (operation.performSkipping skipped ambient store).1
      (operation.performSkipping skipped ambient store).2 := by
  cases operation with
  | interruptWorkerRuns =>
    exact interruptWorkerRuns_refines ambient coherent _
      (fun run selected => (of_decide_eq_true selected).1) rfl
  | reconcileOrphanedRuns =>
    exact reconcileOrphanedRuns_refines ambient coherent _
      (fun run selected => (of_decide_eq_true selected).1) rfl
  | _ => exact perform_refines _ coherent fresh rfl

end Operation

/-- The two outcomes of a reservation that is answered. -/
inductive Reserved (store : InMemorySessionStore) (request : ReserveRunRequest)
    (reservation : RunReservation) (after : InMemorySessionStore) : Prop where
  | owning (owns : reservation.ownsExecution = true)
      (absent : store.runs.get? reservation.run.id = none)
      (found : after.runs.get? reservation.run.id = some reservation.run)
      (worker : reservation.run.workerInstanceId = request.workerInstanceId)
      (pending : reservation.run.status = .pending)
  | replaying (owns : reservation.ownsExecution = false) (same : after = store)
      (found : store.runs.get? reservation.run.id = some reservation.run)

theorem reserveRun_reserved {reservation : RunReservation} (coherent : Coherent store)
    (request : ReserveRunRequest) (fresh : ambient.Fresh store)
    (answered : ((Operation.reserveRun request).perform ambient store).1 =
      .ok (.reservation reservation)) :
    Reserved store request reservation
      ((Operation.reserveRun request).perform ambient store).2 := by
  rw [Operation.perform, wrap_apply] at answered ⊢
  rcases reserveRun_outcomes coherent request ambient fresh with
    ⟨_, _, answer⟩ | ⟨ref, existing, found, _, answer⟩ | ⟨sessionId, base, _, _, _, answer⟩ <;>
  rw [answer] at answered ⊢ <;>
  cases answered
  · refine .replaying rfl rfl ?_
    rw [coherent.runId found, found]
  · exact .owning rfl fresh.2 (Dict.get?_set_self _ _ _) rfl rfl

/-- A cancellation that is answered with a cancelled run leaves its record terminal. -/
theorem cancelRun_settles {outcome : CancelResult} (coherent : Coherent store)
    (answered : ((Operation.cancelRun ref workerInstanceId).perform ambient store).1 =
      .ok (.cancel outcome)) :
    ((Operation.cancelRun ref workerInstanceId).perform ambient store).2.runs.get? ref =
        some outcome.run ∧ outcome.run.Terminal := by
  rw [Operation.perform, wrap_apply] at answered ⊢
  rcases cancelRun_cases coherent ref workerInstanceId ambient with
    ⟨_, answer⟩ | ⟨run, found, terminal, answer⟩ | ⟨_, _, _, _, answer⟩ |
    ⟨run, updated, log, payload, _, _, _, _, move, answer⟩ <;> rw [answer] at answered ⊢ <;>
    cases answered
  · exact ⟨found, terminal⟩
  · refine ⟨Dict.get?_set_self _ _ _, ?_⟩
    cases move
    simp [AgentRun.Terminal, terminalRunStatuses]

/-- What the store call of a task does to the record of its run. -/
inductive Task.Effects (task : Task) (store : InMemorySessionStore) (record : AgentRun) :
    Except PyException Reply → InMemorySessionStore → Prop where
  | early {reply : Except PyException Reply} {after : InMemorySessionStore} {later : AgentRun}
      (body : task.phase.Body) (open' : ∀ result, task.phase ≠ .committing result)
      (found : after.runs.get? task.run.id = some later)
      (active : record.Active → later.Active)
      (loads : task.phase = .loading → after = store ∧ ∀ history,
        reply = .ok (.messages history) →
          store.messages.get? task.context.sessionId = some history)
      (domain : ∀ error, reply = .error error → ∃ domain, error = .domain domain) :
      Effects task store record reply after
  | committed {result : AgentResult} {reply : Reply} {after : InMemorySessionStore}
      {request : CommitRunRequest} {history : List AgentMessage} {ambient : Ambient}
      (committing : task.phase = .committing result) (running : record.status = .running)
      (asked : request.userContent = task.userContent ∧
        request.assistantContent = result.content ∧ request.result = result)
      (read : store.messages.get? record.sessionId = some history)
      (found : after.runs.get? task.run.id = some (completedRun record request (ambient.utcNow 2)))
      (written : after.messages.get? record.sessionId =
        some (history ++ turnMessages record request (history.length + 1) ambient)) :
      Effects task store record (.ok reply) after
  | lost {result : AgentResult} {domain : DayuAgentError}
      (committing : task.phase = .committing result) (idle : record.status ≠ .running) :
      Effects task store record (.error (.domain domain)) store
  | cancelled {reply : Reply} {after : InMemorySessionStore} {later : AgentRun}
      (cancelling : task.phase = .cancelling) (found : after.runs.get? task.run.id = some later)
      (terminal : later.Terminal) : Effects task store record (.ok reply) after
  | failed {error : PyException} {errorCode : String} {reply : Reply}
      {after : InMemorySessionStore} {later : AgentRun}
      (failing : task.phase = .failing error errorCode)
      (found : after.runs.get? task.run.id = some later) (terminal : later.Terminal)
      (coded : record.Active → later.status = .failed ∧ later.errorCode = some errorCode) :
      Effects task store record (.ok reply) after

section TaskEffects

variable {task : Task} {record : AgentRun}

theorem marking_effects (coherent : Coherent store)
    (found : store.runs.get? task.run.id = some record) (suspended : task.phase = .marking)
    (workerInstanceId : String) (ambient : Ambient) :
    task.Effects store record
      ((Operation.markRunRunning task.run.id workerInstanceId).perform ambient store).1
      ((Operation.markRunRunning task.run.id workerInstanceId).perform ambient store).2 := by
  have body : task.phase.Body := suspended ▸ trivial
  have open' : ∀ result, task.phase ≠ .committing result := by simp [suspended]
  have loads : task.phase ≠ .loading := by simp [suspended]
  rw [Operation.perform, wrap_apply]
  rcases markRunRunning_cases coherent task.run.id workerInstanceId ambient with
    ⟨absent, _⟩ | ⟨run, _, _, answer⟩ | ⟨run, log, _, _, _, answer⟩
  · rw [found] at absent
    contradiction
  · rw [answer]
    refine .early body open' found id (fun loading => (loads loading).elim) ?_
    rintro _ ⟨⟩
    exact ⟨_, rfl⟩
  · rw [answer]
    refine .early body open' (Dict.get?_set_self _ _ _) (fun _ => ?_)
      (fun loading => (loads loading).elim) (by rintro _ ⟨⟩)
    simp [AgentRun.Active, activeRunStatuses]

theorem loading_effects (coherent : Coherent store)
    (found : store.runs.get? task.run.id = some record) (suspended : task.phase = .loading)
    (ambient : Ambient) :
    task.Effects store record
      ((Operation.listMessages task.context.sessionId).perform ambient store).1
      ((Operation.listMessages task.context.sessionId).perform ambient store).2 := by
  have body : task.phase.Body := suspended ▸ trivial
  have open' : ∀ result, task.phase ≠ .committing result := by simp [suspended]
  rw [Operation.perform, wrap_apply]
  rcases listMessages_cases coherent task.context.sessionId with
    ⟨_, answer⟩ | ⟨_, history, _, read, answer⟩ <;> rw [answer]
  · refine .early body open' found id (fun _ => ⟨rfl, by rintro _ ⟨⟩⟩) ?_
    rintro _ ⟨⟩
    exact ⟨_, rfl⟩
  · refine .early body open' found id (fun _ => ⟨rfl, ?_⟩) (by rintro _ ⟨⟩)
    rintro _ ⟨⟩
    exact read

theorem incrementing_effects (found : store.runs.get? task.run.id = some record)
    (suspended : task.phase = .incrementing started) (ambient : Ambient) :
    task.Effects store record
      ((Operation.incrementRunAttempt task.run.id).perform ambient store).1
      ((Operation.incrementRunAttempt task.run.id).perform ambient store).2 := by
  have body : task.phase.Body := suspended ▸ trivial
  have open' : ∀ result, task.phase ≠ .committing result := by simp [suspended]
  have loads : task.phase ≠ .loading := by simp [suspended]
  rw [Operation.perform, wrap_apply]
  rcases incrementRunAttempt_cases store task.run.id with
    ⟨absent, _⟩ | ⟨run, _, _, answer⟩ | ⟨run, present, active, answer⟩
  · rw [found] at absent
    contradiction
  · rw [answer]
    refine .early body open' found id (fun loading => (loads loading).elim) ?_
    rintro _ ⟨⟩
    exact ⟨_, rfl⟩
  · rw [answer]
    exact .early body open' (Dict.get?_set_self _ _ _) (fun _ => active)
      (fun loading => (loads loading).elim) (by rintro _ ⟨⟩)

private theorem persisting_effects (coherent : Coherent store)
    (found : store.runs.get? task.run.id = some record)
    (suspended : task.phase = .persisting attempt event delta) (type : StreamEventType)
    (payload : JsonObject) (ambient : Ambient) :
    task.Effects store record
      ((Operation.appendStreamEvent task.run.id type payload).perform ambient store).1
      ((Operation.appendStreamEvent task.run.id type payload).perform ambient store).2 := by
  have body : task.phase.Body := suspended ▸ trivial
  have open' : ∀ result, task.phase ≠ .committing result := by simp [suspended]
  have loads : task.phase ≠ .loading := by simp [suspended]
  rw [Operation.perform, wrap_apply]
  rcases appendStreamEvent_cases coherent task.run.id type payload ambient with
    ⟨absent, _⟩ | ⟨run, log, _, _, answer⟩
  · rw [found] at absent
    contradiction
  · rw [answer]
    exact .early body open' found id (fun loading => (loads loading).elim) (by rintro _ ⟨⟩)

private theorem committing_effects (coherent : Coherent store)
    (found : store.runs.get? task.run.id = some record)
    (suspended : task.phase = .committing result) {request : CommitRunRequest}
    (asked : request.userContent = task.userContent ∧
      request.assistantContent = result.content ∧ request.result = result) (ambient : Ambient) :
    task.Effects store record
      ((Operation.commitRunSuccess task.run.id request).perform ambient store).1
      ((Operation.commitRunSuccess task.run.id request).perform ambient store).2 := by
  rw [Operation.perform, wrap_apply]
  rcases commitRunSuccess_cases coherent task.run.id request ambient with
    ⟨absent, _⟩ | ⟨run, present, idle, answer⟩ |
    ⟨run, session, history, log, present, own, running, _, same, read, _, answer⟩
  · rw [found] at absent
    contradiction
  · rw [found] at present
    cases present
    rw [answer]
    exact .lost suspended idle
  · rw [found] at present
    cases present
    rw [answer]
    rw [← same] at read
    have settled : (withTurn store record session history log request ambient).runs.get?
        task.run.id = some (completedRun record request (ambient.utcNow 2)) := by
      rw [← own]
      exact Dict.get?_set_self _ _ _
    refine .committed suspended running asked read settled ?_
    rw [withTurn_messages, same, Dict.get?_set_self]

private theorem cancelling_effects (coherent : Coherent store)
    (found : store.runs.get? task.run.id = some record) (suspended : task.phase = .cancelling)
    (own : record.workerInstanceId = workerInstanceId) (ambient : Ambient) :
    task.Effects store record
      ((Operation.cancelRun task.run.id workerInstanceId).perform ambient store).1
      ((Operation.cancelRun task.run.id workerInstanceId).perform ambient store).2 := by
  rw [Operation.perform, wrap_apply]
  rcases cancelRun_cases coherent task.run.id workerInstanceId ambient with
    ⟨absent, _⟩ | ⟨run, present, terminal, answer⟩ | ⟨run, present, _, foreign, _⟩ |
    ⟨run, updated, log, payload, _, _, _, _, move, answer⟩
  · rw [found] at absent
    contradiction
  · rw [answer]
    exact .cancelled suspended present terminal
  · rw [found] at present
    cases present
    exact (foreign own).elim
  · rw [answer]
    refine .cancelled suspended (Dict.get?_set_self _ _ _) ?_
    cases move
    simp [AgentRun.Terminal, terminalRunStatuses]

private theorem failing_effects (coherent : Coherent store)
    (found : store.runs.get? task.run.id = some record)
    (suspended : task.phase = .failing error errorCode) (ambient : Ambient) :
    task.Effects store record
      ((Operation.failRun task.run.id errorCode).perform ambient store).1
      ((Operation.failRun task.run.id errorCode).perform ambient store).2 := by
  rw [Operation.perform, wrap_apply]
  rcases failRun_cases coherent task.run.id errorCode ambient with
    ⟨absent, _⟩ | ⟨run, present, terminal, answer⟩ |
    ⟨run, updated, log, payload, _, _, _, move, coded, answer⟩
  · rw [found] at absent
    contradiction
  · rw [answer]
    rw [found] at present
    cases present
    exact .failed suspended found terminal
      fun active => ((not_active_iff_terminal _).mpr terminal active).elim
  · rw [answer]
    cases move
    refine .failed suspended (Dict.get?_set_self _ _ _) ?_ fun _ => ⟨rfl, coded⟩
    simp [AgentRun.Terminal, terminalRunStatuses]

theorem Task.effects {config : Config} {operation : Operation} (coherent : Coherent store)
    (found : store.runs.get? task.run.id = some record)
    (own : record.workerInstanceId = config.workerInstanceId)
    (asks : task.operation config = some operation) (ambient : Ambient) :
    task.Effects store record (operation.perform ambient store).1
      (operation.perform ambient store).2 := by
  unfold Task.operation at asks
  split at asks <;> cases asks <;> rename_i suspended
  · exact marking_effects coherent found suspended _ ambient
  · exact loading_effects coherent found suspended ambient
  · exact incrementing_effects found suspended ambient
  · exact persisting_effects coherent found suspended _ _ ambient
  · exact committing_effects coherent found suspended ⟨rfl, rfl, rfl⟩ ambient
  · exact cancelling_effects coherent found suspended own ambient
  · exact failing_effects coherent found suspended ambient

end TaskEffects

end DayuAgent
