import DayuAgent.Memory.Operation

/-! How the five dictionaries of the store fit together, and the edits that one
operation can be made of. Every edit keeps the dictionaries coherent. -/

namespace DayuAgent.InMemorySessionStore

open Library

structure Coherent (store : InMemorySessionStore) : Prop where
  sessionId : store.sessions.get? ref = some record → record.id = ref
  transcripts : (store.messages.get? ref).isSome = (store.sessions.get? ref).isSome
  runId : store.runs.get? ref = some run → run.id = ref
  logs : (store.events.get? ref).isSome = (store.runs.get? ref).isSome
  runSession : store.runs.get? ref = some run → (store.sessions.get? run.sessionId).isSome
  bindings : store.idempotency.get? key = some ref ↔
    ∃ run, store.runs.get? ref = some run ∧ run.idempotencyKey = some key
  oneActive : store.runs.get? ref = some run → store.runs.get? otherId = some other →
    run.sessionId = other.sessionId → run.Active → other.Active → ref = otherId

theorem empty_coherent : Coherent empty where
  sessionId found := by simp [empty] at found
  transcripts := by simp [empty]
  runId found := by simp [empty] at found
  logs := by simp [empty]
  runSession found := by simp [empty] at found
  bindings := by simp [empty]
  oneActive found := by simp [empty] at found

theorem activeRunLocked_none_iff (store : InMemorySessionStore) (sessionId : String) :
    activeRunLocked store sessionId = none ↔
      ∀ ref run, store.runs.get? ref = some run → run.sessionId = sessionId → ¬ run.Active := by
  simp only [activeRunLocked, List.find?_eq_none, Dict.mem_values_iff, decide_eq_true_eq]
  constructor
  · intro idle ref run found same active
    exact idle run ⟨ref, found⟩ ⟨same, active⟩
  · rintro idle run ⟨ref, found⟩ ⟨same, active⟩
    exact idle ref run found same active

theorem activeRunLocked_some (chosen : activeRunLocked store sessionId = some run) :
    ∃ ref, store.runs.get? ref = some run ∧ run.sessionId = sessionId ∧ run.Active := by
  obtain ⟨ref, found⟩ := (Dict.mem_values_iff _ _).mp (List.mem_of_find?_eq_some chosen)
  have test := List.find?_some chosen
  simp only [decide_eq_true_eq] at test
  exact ⟨ref, found, test⟩

namespace Coherent

variable {store : InMemorySessionStore}

theorem transcriptOf (coherent : Coherent store) (found : store.sessions.get? ref = some record) :
    ∃ history, store.messages.get? ref = some history := by
  rw [← Option.isSome_iff_exists, coherent.transcripts, found]
  rfl

theorem logOf (coherent : Coherent store) (found : store.runs.get? ref = some run) :
    ∃ log, store.events.get? ref = some log := by
  rw [← Option.isSome_iff_exists, coherent.logs, found]
  rfl

theorem runOf (coherent : Coherent store) (found : store.events.get? ref = some log) :
    ∃ run, store.runs.get? ref = some run := by
  rw [← Option.isSome_iff_exists, ← coherent.logs, found]
  rfl

/-- Writing the transcript and the record of a session. -/
theorem putSession (coherent : Coherent store) (own : updated.id = ref)
    (history : List AgentMessage) :
    Coherent { store with
      messages := store.messages.set ref history, sessions := store.sessions.set ref updated } where
  sessionId {other chosen} present := by
    simp only [Dict.get?_set] at present
    split at present
    · next same =>
      cases present
      exact own.trans same.symm
    · exact coherent.sessionId present
  transcripts {other} := by
    simp only [Dict.get?_set]
    split
    · rfl
    · exact coherent.transcripts
  runId := coherent.runId
  logs := coherent.logs
  runSession {other run} present := by
    simp only [Dict.get?_set]
    split
    · rfl
    · exact coherent.runSession present
  bindings := coherent.bindings
  oneActive := coherent.oneActive

/-- Rewriting an existing run without moving it to another session or key and
without reviving it. -/
theorem setRun (coherent : Coherent store) (found : store.runs.get? ref = some run)
    (sameId : updated.id = run.id) (sameSession : updated.sessionId = run.sessionId)
    (sameKey : updated.idempotencyKey = run.idempotencyKey)
    (notRevived : updated.Active → run.Active) :
    Coherent { store with runs := store.runs.set ref updated } where
  sessionId := coherent.sessionId
  transcripts := coherent.transcripts
  runId {other chosen} present := by
    simp only [Dict.get?_set] at present
    split at present
    · cases present
      simp_all [coherent.runId found]
    · exact coherent.runId present
  logs {other} := by
    simp only [Dict.get?_set]
    split
    · subst other
      simp [coherent.logs, found]
    · exact coherent.logs
  runSession {other chosen} present := by
    simp only [Dict.get?_set] at present
    split at present
    · cases present
      rw [sameSession]
      exact coherent.runSession found
    · exact coherent.runSession present
  bindings {key other} := by
    simp only [Dict.get?_set]
    by_cases same : other = ref
    · subst other
      simp [coherent.bindings, found, sameKey]
    · simp [same, coherent.bindings]
  oneActive {first one second two} presentOne presentTwo session activeOne activeTwo := by
    -- Replace either record by the one it was before: same session, still active.
    have before : ∀ {other chosen},
        (store.runs.set ref updated).get? other = some chosen → chosen.Active →
        ∃ former, store.runs.get? other = some former ∧ former.Active ∧
          former.sessionId = chosen.sessionId := by
      intro other chosen present active
      simp only [Dict.get?_set] at present
      split at present
      · cases present
        subst other
        exact ⟨run, found, notRevived active, sameSession.symm⟩
      · exact ⟨chosen, present, active, rfl⟩
    obtain ⟨formerOne, foundOne, wasOne, sessionOne⟩ := before presentOne activeOne
    obtain ⟨formerTwo, foundTwo, wasTwo, sessionTwo⟩ := before presentTwo activeTwo
    exact coherent.oneActive foundOne foundTwo (by rw [sessionOne, sessionTwo, session])
      wasOne wasTwo

/-- Rewriting the event log of an existing run. -/
theorem setLog (coherent : Coherent store) (found : store.runs.get? ref = some run)
    (log : List StreamEvent) : Coherent { store with events := store.events.set ref log } where
  sessionId := coherent.sessionId
  transcripts := coherent.transcripts
  runId := coherent.runId
  logs {other} := by
    simp only [Dict.get?_set]
    split
    · subst other
      simp [found]
    · exact coherent.logs
  runSession := coherent.runSession
  bindings := coherent.bindings
  oneActive := coherent.oneActive

end Coherent

/-- The dictionary of idempotency keys once a new run is bound. -/
def bindKey (store : InMemorySessionStore) (run : AgentRun) : Dict String String :=
  match run.idempotencyKey with
  | some key => store.idempotency.set key run.id
  | none => store.idempotency

/-- The store with a new pending run. -/
def withRun (store : InMemorySessionStore) (run : AgentRun) : InMemorySessionStore :=
  { store with
    runs := store.runs.set run.id run
    events := store.events.set run.id []
    idempotency := bindKey store run }

/-- A new run in an idle session under an unused key. -/
theorem Coherent.withRun {store : InMemorySessionStore} {run : AgentRun}
    (coherent : Coherent store)
    (opened : store.sessions.get? run.sessionId = some session)
    (absent : store.runs.get? run.id = none)
    (idle : activeRunLocked store run.sessionId = none)
    (unused : run.idempotencyKey.bind store.idempotency.get? = none) :
    Coherent (withRun store run) where
  sessionId := coherent.sessionId
  transcripts := coherent.transcripts
  runId {other chosen} present := by
    simp only [InMemorySessionStore.withRun, Dict.get?_set] at present
    split at present
    · cases present
      simp_all
    · exact coherent.runId present
  logs {other} := by
    simp only [InMemorySessionStore.withRun, Dict.get?_set]
    split
    · rfl
    · exact coherent.logs
  runSession {other chosen} present := by
    simp only [InMemorySessionStore.withRun, Dict.get?_set] at present
    split at present
    · cases present
      simp [InMemorySessionStore.withRun, opened]
    · exact coherent.runSession present
  bindings {key other} := by
    have others := @bindings _ coherent key other
    simp only [InMemorySessionStore.withRun, bindKey, Dict.get?_set]
    cases chosen : run.idempotencyKey with
    | none =>
      by_cases same : other = run.id
      · subst other
        simp [others, absent, chosen]
      · simp [others, same]
    | some own =>
      rw [chosen] at unused
      simp only [Option.bind_some] at unused
      by_cases same : other = run.id
      · subst other
        by_cases sameKey : key = own
        · simp [sameKey, chosen]
        · simp [Dict.get?_set, sameKey, chosen, others, absent, Ne.symm sameKey]
      · by_cases sameKey : key = own
        · subst key
          have notBound := mt others.mpr (by simp [unused])
          simp only [Dict.get?_set_self, Option.some.injEq, same, ↓reduceIte]
          exact ⟨fun equal => (same equal.symm).elim, fun bound => (notBound bound).elim⟩
        · simp [Dict.get?_set, sameKey, same, others]
  oneActive {first one second two} presentOne presentTwo session activeOne activeTwo := by
    have quiet := (activeRunLocked_none_iff store run.sessionId).mp idle
    simp only [InMemorySessionStore.withRun, Dict.get?_set] at presentOne presentTwo
    split at presentOne <;> split at presentTwo
    · simp_all
    · cases presentOne
      exact (quiet _ _ presentTwo session.symm activeTwo).elim
    · cases presentTwo
      exact (quiet _ _ presentOne session activeOne).elim
    · exact coherent.oneActive presentOne presentTwo session activeOne activeTwo

end DayuAgent.InMemorySessionStore
