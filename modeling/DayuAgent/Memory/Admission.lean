import DayuAgent.Memory.Reachable

namespace DayuAgent

open Library InMemorySessionStore

/-- The call reserved a run under the key, or replayed the one it is bound to. -/
def Call.Reserves (call : Call) (key : String) : Prop :=
  ∃ request reservation, call.operation = .reserveRun request ∧
    request.idempotencyKey = some key ∧ call.reply = .ok (.reservation reservation)

namespace InMemorySessionStore

/-- The key is bound to a run that was reserved under the request hash. -/
structure Binds (store : InMemorySessionStore) (key ref requestHash : String) : Prop where
  bound : store.idempotency.get? key = some ref
  hashed : ∃ run, store.runs.get? ref = some run ∧ run.requestHash = requestHash

private theorem Binds.set {store after : InMemorySessionStore} {former updated : AgentRun}
    (binds : Binds store key ref requestHash) (found : store.runs.get? own = some former)
    (sameRuns : after.runs = store.runs.set own updated)
    (sameHash : updated.requestHash = former.requestHash)
    (sameKeys : after.idempotency = store.idempotency) : Binds after key ref requestHash := by
  obtain ⟨bound, run, present, hashed⟩ := binds
  refine ⟨sameKeys ▸ bound, ?_⟩
  rw [sameRuns]
  by_cases chosen : ref = own
  · subst chosen
    rw [found] at present
    cases present
    exact ⟨updated, Dict.get?_set_self _ _ _, sameHash.trans hashed⟩
  · exact ⟨run, (Dict.get?_set_ne _ _ chosen).trans present, hashed⟩

end InMemorySessionStore

/-- A binding is never taken back. -/
theorem Edit.binds (edit : Edit store effect after) (binds : Binds store key ref requestHash) :
    Binds after key ref requestHash := by
  cases edit with
  | ready | openSession | say | clear | emit | prune => exact ⟨binds.bound, binds.hashed⟩
  | attempt found => exact binds.set found rfl rfl rfl
  | move found read change => exact binds.set found rfl change.same.2.2.2 rfl
  | commit found => exact binds.set found rfl rfl rfl
  | reserve request own ambient found absent idle unused =>
    obtain ⟨bound, run, present, hashed⟩ := binds
    have different : ref ≠ ambient.uuid4 1 := by
      rintro rfl
      rw [absent] at present
      contradiction
    refine ⟨?_, run, (Dict.get?_set_ne _ _ different).trans present, hashed⟩
    cases keyed : request.idempotencyKey with
    | none => simpa [withRun, bindKey, pendingRun, keyed] using bound
    | some fresh =>
      have otherKey : key ≠ fresh := by
        rintro rfl
        simp [keyed, bound] at unused
      simpa [withRun, bindKey, pendingRun, keyed, Dict.get?_set, otherKey] using bound

/-- Only a reservation binds a key. -/
theorem Edit.bound_before (edit : Edit store effect after)
    (bound : after.idempotency.get? key = some ref) :
    store.idempotency.get? key = some ref ∨
      ∃ run, effect = .reserved run ∧ run.idempotencyKey = some key := by
  cases edit with
  | reserve request own ambient =>
    cases keyed : request.idempotencyKey with
    | none =>
      left
      simpa [withRun, bindKey, pendingRun, keyed] using bound
    | some fresh =>
      by_cases same : key = fresh
      · right
        exact ⟨_, rfl, by simp [pendingRun, keyed, same]⟩
      · left
        simpa [withRun, bindKey, pendingRun, keyed, Dict.get?_set, same] using bound
  | _ => exact .inl bound

namespace InMemorySessionStore

variable {store after : InMemorySessionStore}

private theorem edits_bound (edits : Run Edit empty effects store)
    (bound : store.idempotency.get? key = some ref) :
    ∃ run, .reserved run ∈ effects ∧ run.idempotencyKey = some key := by
  generalize origin : empty = start at edits
  induction edits with
  | nil =>
    subst origin
    simp [empty] at bound
  | snoc earlier edit ih =>
    rcases edit.bound_before bound with old | ⟨run, rfl, carried⟩
    · obtain ⟨run, member, carried⟩ := ih old
      exact ⟨run, List.mem_append_left _ member, carried⟩
    · exact ⟨run, by simp, carried⟩

private theorem Traces.reserves (traces : Traces calls effects) (member : .reserved run ∈ effects)
    (keyed : run.idempotencyKey = some key) : ∃ call ∈ calls, call.Reserves key := by
  induction traces with
  | nil => simp at member
  | @snoc calls effects latest call earlier makes ih =>
    rcases List.mem_append.mp member with old | new
    · obtain ⟨other, present, reserves⟩ := ih old
      exact ⟨other, List.mem_append_left _ present, reserves⟩
    · obtain ⟨request, _, same, carried, _, answered, _⟩ := makes_reserved makes new
      exact ⟨call, by simp, request, _, same, carried.symm.trans keyed, answered⟩

/-- A bound key was reserved by some earlier call. -/
theorem History.bound (history : History empty calls store)
    (bound : store.idempotency.get? key = some ref) : ∃ call ∈ calls, call.Reserves key := by
  obtain ⟨effects, edits, traces⟩ := history.traces empty_coherent
  obtain ⟨run, member, carried⟩ := edits_bound edits bound
  exact traces.reserves member carried

theorem History.binds (history : History store calls after) (coherent : Coherent store)
    (binds : Binds store key ref requestHash) : Binds after key ref requestHash := by
  induction history with
  | nil => exact binds
  | snoc earlier answers ih =>
    obtain ⟨effects, edits, _⟩ := Answers.refines answers (History.coherent earlier coherent)
    exact edits.invariant ih fun before edit => edit.binds before

/-- Every call that raises leaves the whole store as it was. -/
theorem Answers.raised (answers : Answers store call after) (coherent : Coherent store)
    (failed : call.reply = .error error) : after = store := by
  obtain ⟨effects, edits, makes⟩ := answers.refines coherent
  have none : effects = [] := by
    rw [failed] at makes
    generalize call.operation = operation at makes
    cases makes
    rfl
  subst none
  exact edits.of_nil.symm

/-- The first reservation under a key owns a new run. -/
theorem reserve_first (coherent : Coherent store) (request : ReserveRunRequest)
    (fresh : ambient.Fresh store) (keyed : request.idempotencyKey = some key)
    (unused : store.idempotency.get? key = none)
    (answered : reserveRun request ambient store = (.ok reservation, after)) :
    reservation.ownsExecution = true ∧
      Binds after key reservation.run.id request.requestHash := by
  rcases reserveRun_cases coherent request ambient fresh (by simp [keyed, unused]) with
    ⟨_, _, _, answer⟩ | ⟨_, _, _, _, answer⟩ | ⟨sessionId, base, _, _, answer⟩
  · rw [answer] at answered
    cases answered
  · rw [answer] at answered
    cases answered
  · rw [answer] at answered
    cases answered
    exact ⟨rfl, by simp [withRun, bindKey, pendingRun, keyed],
      _, Dict.get?_set_self _ _ _, rfl⟩

/-- Every later reservation under the key is decided by its request hash. -/
theorem reserve_later (coherent : Coherent store) (request : ReserveRunRequest)
    (ambient : Ambient) (keyed : request.idempotencyKey = some key)
    (binds : Binds store key ref requestHash) :
    ∃ run, run.id = ref ∧ run.requestHash = requestHash ∧ reserveRun request ambient store =
      (if requestHash = request.requestHash then .ok { run, ownsExecution := false }
        else .error (idempotencyConflict request run), store) := by
  obtain ⟨existing, found, _, answer⟩ :=
    reserveRun_replay coherent request ambient keyed binds.bound
  obtain ⟨run, present, hashed⟩ := binds.hashed
  rw [found] at present
  cases present
  exact ⟨existing, coherent.runId found, hashed, by rw [answer, hashed]⟩

private theorem reserveRun_reply (answers : Answers store call after)
    (reserve : call.operation = .reserveRun request) :
    reserveRun request call.ambient store = ((reserveRun request call.ambient store).1, after) ∧
      call.reply = (reserveRun request call.ambient store).1.map .reservation := by
  obtain ⟨_, answered⟩ := answers
  rw [reserve, Operation.perform, wrap_apply, Prod.mk.injEq] at answered
  exact ⟨by rw [← answered.2], answered.1.symm⟩

/-- Sessions have one active run, keys have one run, the first reservation that
returns under a key is its owner, later ones replay it or conflict without an
effect, and a rejected call leaves the store as it was. -/
theorem admission_arbitrated (history : History empty calls store) :
    (∀ {ref other first second}, store.runs.get? ref = some first →
      store.runs.get? other = some second → first.sessionId = second.sessionId →
      first.Active → second.Active → ref = other) ∧
    (∀ {key ref}, store.idempotency.get? key = some ref ↔
      ∃ run, store.runs.get? ref = some run ∧ run.idempotencyKey = some key) ∧
    (∀ {key ref other first second}, store.runs.get? ref = some first →
      store.runs.get? other = some second → first.idempotencyKey = some key →
      second.idempotencyKey = some key → ref = other) ∧
    (∀ before first middle {key request reservation}, calls = before ++ first :: middle →
      first.operation = .reserveRun request → request.idempotencyKey = some key →
      first.reply = .ok (.reservation reservation) → (∀ call ∈ before, ¬ call.Reserves key) →
      reservation.ownsExecution = true ∧
      ∀ later {after again}, Answers store later after →
        later.operation = .reserveRun again → again.idempotencyKey = some key →
        after = store ∧
        (again.requestHash = request.requestHash → ∃ run, run.id = reservation.run.id ∧
          later.reply = .ok (.reservation { run, ownsExecution := false })) ∧
        (again.requestHash ≠ request.requestHash → ∃ run, run.id = reservation.run.id ∧
          later.reply = .error (idempotencyConflict again run))) ∧
    (∀ {call after error}, Answers store call after → call.reply = .error error →
      after = store) := by
  have coherent := History.coherent history empty_coherent
  refine ⟨coherent.oneActive, coherent.bindings, ?_, ?_,
    fun answers failed => Answers.raised answers coherent failed⟩
  · intro key ref other first second found present firstKey secondKey
    have bound := coherent.bindings.mpr ⟨first, found, firstKey⟩
    rw [coherent.bindings.mpr ⟨second, present, secondKey⟩] at bound
    cases bound
    rfl
  · intro before first middle key request reservation split reserve keyed returned none
    subst split
    obtain ⟨earlier, changed, past, answers, rest⟩ := history.around
    have coherentEarlier := History.coherent past empty_coherent
    have unused : earlier.idempotency.get? key = Option.none := by
      by_contra taken
      obtain ⟨ref, bound⟩ := Option.ne_none_iff_exists'.mp taken
      obtain ⟨call, member, reserves⟩ := History.bound past bound
      exact none call member reserves
    obtain ⟨performed, same⟩ := reserveRun_reply answers reserve
    rw [returned] at same
    obtain ⟨value, succeeded⟩ : ∃ value,
        (reserveRun request first.ambient earlier).1 = .ok value := by
      cases result : (reserveRun request first.ambient earlier).1 with
      | error error => simp [result, Except.map] at same
      | ok value => exact ⟨value, rfl⟩
    rw [succeeded] at performed same
    cases same
    obtain ⟨owns, binds⟩ :=
      reserve_first coherentEarlier request answers.1 keyed unused performed
    refine ⟨owns, ?_⟩
    intro later after again answered reserveAgain keyedAgain
    have kept := History.binds rest (Answers.coherent answers coherentEarlier) binds
    obtain ⟨run, ref, hashed, answer⟩ :=
      reserve_later coherent again later.ambient keyedAgain kept
    obtain ⟨performedAgain, replied⟩ := reserveRun_reply answered reserveAgain
    rw [answer] at performedAgain replied
    refine ⟨(congrArg Prod.snd performedAgain).symm, ?_, ?_⟩
    · intro equal
      exact ⟨run, ref, by rw [replied, if_pos equal.symm]; rfl⟩
    · intro different
      exact ⟨run, ref, by rw [replied, if_neg (Ne.symm different)]; rfl⟩

theorem admission_arbitrated_sampleTurn :
    ∃ run, run.id = "run" ∧ ((Operation.reserveRun (.sample none (some "key") "hash")).perform
      (.sample "h" "h") (execute empty sampleTurn).2).1 =
        .ok (.reservation { run, ownsExecution := false }) := by
  have arbitrated := admission_arbitrated (execute_history sampleTurn empty (by decide))
  have former : ∀ call ∈ [(execute empty sampleTurn).1[0]], ¬ call.Reserves "key" := by
    rintro call member ⟨request, _, reserve, _⟩
    cases List.mem_singleton.mp member
    cases reserve
  obtain ⟨_, replays⟩ := arbitrated.2.2.2.1 [(execute empty sampleTurn).1[0]]
    (execute empty sampleTurn).1[1] _ rfl rfl rfl rfl former
  obtain ⟨_, same, _⟩ := replays
    ⟨.sample "h" "h", .reserveRun (.sample none (some "key") "hash"), _⟩ ⟨by decide, rfl⟩ rfl rfl
  exact same rfl

end InMemorySessionStore

end DayuAgent
