import DayuAgent.Memory.Isolation

namespace DayuAgent

open Library

/-- The draws of a sweep at some of its positions only. -/
def Ambient.at (ambient : Ambient) (positions : List Nat) : Ambient where
  uuid4 index := ambient.uuid4 (positions.getD index 0)
  utcNow index := ambient.utcNow (2 * positions.getD (index / 2) 0 + index % 2)

namespace InMemorySessionStore

/-- The positions of the kept runs in a list that starts at an index. -/
def keptAt (keep : AgentRun → Bool) (index : Nat) : List AgentRun → List Nat
  | [] => []
  | run :: rest => if keep run then index :: keptAt keep (index + 1) rest
    else keptAt keep (index + 1) rest

variable {homes : Homes} {own : String} {store : InMemorySessionStore}

section Sweeps

private theorem interruptLocked_confined (home : homes.run run.id = own) (id : String)
    (completed created : Time) :
    Confined (within homes) own (interruptLocked run id completed created) store := by
  apply Confined.bind (.lifted _)
  intro _ _ _
  exact publish_confined home _ _ _ _ _ ()

/-- A sweep does to one session what a sweep over the runs of the session does. -/
theorem interruptEach_within (ambient : Ambient) (positions : List Nat)
    (matching : List AgentRun) :
    ∀ (index seen : Nat) (store : InMemorySessionStore), Coherent store →
      Collected store matching →
      positions.drop seen = keptAt (fun run => homes.run run.id = own) index matching →
      interruptEach (ambient.at positions) seen
          (matching.filter fun run => homes.run run.id = own) (within homes own store) =
        (.ok (), within homes own (interruptEach ambient index matching store).2) := by
  induction matching with
  | nil =>
    intro index seen store _ _ _
    rfl
  | cons run rest ih =>
    intro index seen store coherent collected drawn
    obtain ⟨log, found, active, read⟩ := collected.head coherent
    have edit := withInterrupt_edit found active read (ambient.uuid4 index)
      (ambient.utcNow (2 * index)) (ambient.utcNow (2 * index + 1))
    have first := interruptLocked_ok active read (ambient.uuid4 index)
      (ambient.utcNow (2 * index)) (ambient.utcNow (2 * index + 1))
    have later := fun seen =>
      ih (index + 1) seen _ (edit.coherent coherent) (collected.tail log _ _ _)
    have swept : interruptEach ambient index (run :: rest) store =
        interruptEach ambient (index + 1) rest (withInterrupt store run log (ambient.uuid4 index)
          (ambient.utcNow (2 * index)) (ambient.utcNow (2 * index + 1))) := Command.bind_ok first
    rw [swept]
    by_cases home : homes.run run.id = own
    · rw [keptAt, if_pos (decide_eq_true home)] at drawn
      have drop : positions.drop (seen + 1) =
          keptAt (fun run => homes.run run.id = own) (index + 1) rest := by
        rw [← List.tail_drop, drawn, List.tail_cons]
      have here : positions.getD seen 0 = index := by
        rw [List.getD_eq_getElem?_getD, ← List.head?_drop, drawn]
        rfl
      have draws : (ambient.at positions).uuid4 seen = ambient.uuid4 index ∧
          (ambient.at positions).utcNow (2 * seen) = ambient.utcNow (2 * index) ∧
          (ambient.at positions).utcNow (2 * seen + 1) = ambient.utcNow (2 * index + 1) := by
        have even : 2 * seen / 2 = seen ∧ 2 * seen % 2 = 0 := by omega
        have odd : (2 * seen + 1) / 2 = seen ∧ (2 * seen + 1) % 2 = 1 := by omega
        simp only [Ambient.at, even, odd, here, Nat.add_zero, and_self]
      have confined : Confined (within homes) own (interruptLocked run (ambient.uuid4 index)
          (ambient.utcNow (2 * index)) (ambient.utcNow (2 * index + 1))) store :=
        interruptLocked_confined home _ _ _
      have inside := confined.inside
      rw [first] at inside
      rw [List.filter_cons_of_pos (by simpa using home), interruptEach, draws.1, draws.2.1,
        draws.2.2, Command.bind_ok inside]
      exact later (seen + 1) drop
    · rw [keptAt, if_neg (by simpa using home)] at drawn
      have confined : Confined (within homes) (homes.run run.id) (interruptLocked run
          (ambient.uuid4 index) (ambient.utcNow (2 * index)) (ambient.utcNow (2 * index + 1)))
          store := interruptLocked_confined rfl _ _ _
      have outside := confined.outside (Ne.symm home)
      rw [first] at outside
      rw [List.filter_cons_of_neg (by simpa using home), ← outside]
      exact later seen drawn

private theorem within_matchingRuns (coherent : Coherent store) (selected : AgentRun → Bool) :
    matchingRuns (within homes own store) selected =
      (matchingRuns store selected).filter fun run => homes.run run.id = own := by
  have kept := Dict.values_restrict (fun ref => decide (homes.run ref = own)) store.runs
    coherent.runId
  simp only [matchingRuns, within, kept, List.filter_filter, Bool.and_comm]

/-- The draws that reach one session in a sweep over the selected runs. -/
def sweepDraws (homes : Homes) (own : String) (selected : AgentRun → Bool) (ambient : Ambient)
    (store : InMemorySessionStore) : Ambient :=
  ambient.at (keptAt (fun run => homes.run run.id = own) 0 (matchingRuns store selected))

theorem interruptMatching_within (coherent : Coherent store) (selected : AgentRun → Bool)
    (ambient : Ambient) :
    (interruptMatching selected (sweepDraws homes own selected ambient store)
        (within homes own store)).2 =
      within homes own (interruptMatching selected ambient store).2 := by
  have collected := matchingRuns_collected coherent selected
  have swept := interruptEach_within ambient
    (keptAt (fun run => homes.run run.id = own) 0 (matchingRuns store selected))
    (matchingRuns store selected) 0 0 store coherent collected rfl
  obtain ⟨after, ran, _⟩ := interruptEach_ok ambient (matchingRuns store selected) 0 store
    coherent collected
  rw [← within_matchingRuns coherent selected] at swept
  have whole : interruptMatching selected ambient store =
      (.ok (matchingRuns store selected).length, after) := by
    simp only [interruptMatching, Command.bind_apply, Command.read_apply]
    rw [← matchingRuns, ran]
    rfl
  have alone : interruptMatching selected (sweepDraws homes own selected ambient store)
      (within homes own store) =
        (.ok (matchingRuns (within homes own store) selected).length, within homes own after) := by
    simp only [interruptMatching, Command.bind_apply, Command.read_apply]
    rw [← matchingRuns, sweepDraws, swept, ran]
    rfl
  rw [whole, alone]

private theorem pruneEach_cons (found : store.runs.get? ref = some run) (before : Time)
    (log : List StreamEvent) (rest : List (String × List StreamEvent)) :
    (pruneEach before ((ref, log) :: rest) store).2 =
      (pruneEach before rest (if run.Terminal
        then withLog store ref (log.filter fun event => before ≤ event.createdAt)
        else store)).2 := by
  by_cases terminal : run.Terminal
  · simp only [pruneEach, Command.bind_apply, item_ok runs found, terminal, ↓reduceIte,
      Command.write_apply]
    rw [← withLog]
    cases pruneEach before rest
        (withLog store ref (log.filter fun event => before ≤ event.createdAt)) with
    | mk result after => cases result <;> rfl
  · simp only [pruneEach, Command.bind_apply, item_ok runs found, terminal, ↓reduceIte]

private theorem within_withLog (log : List StreamEvent) :
    within homes own (withLog store ref log) =
      if homes.run ref = own then withLog (within homes own store) ref log
      else within homes own store := by
  by_cases home : homes.run ref = own <;> simp [within, withLog, Dict.restrict_set, home]

private theorem pruneEach_within (before : Time) (entries : List (String × List StreamEvent))
    (store : InMemorySessionStore)
    (present : ∀ entry ∈ entries, (store.runs.get? entry.1).isSome) :
    (pruneEach before (entries.filter fun entry => homes.run entry.1 = own)
        (within homes own store)).2 =
      within homes own (pruneEach before entries store).2 := by
  induction entries generalizing store with
  | nil => rfl
  | cons entry rest ih =>
    obtain ⟨ref, log⟩ := entry
    obtain ⟨run, found⟩ := Option.isSome_iff_exists.mp (present (ref, log) List.mem_cons_self)
    have presentRest := fun entry member => present entry (List.mem_cons_of_mem _ member)
    rw [pruneEach_cons found]
    by_cases home : homes.run ref = own
    · rw [List.filter_cons_of_pos (by simpa using home),
        pruneEach_cons ((within_run home).trans found)]
      by_cases terminal : run.Terminal
      · have later := ih (withLog store ref (log.filter fun event => before ≤ event.createdAt))
          presentRest
        rw [within_withLog, if_pos home] at later
        rw [if_pos terminal, if_pos terminal, later]
      · rw [if_neg terminal, if_neg terminal, ih store presentRest]
    · rw [List.filter_cons_of_neg (by simpa using home)]
      by_cases terminal : run.Terminal
      · have later := ih (withLog store ref (log.filter fun event => before ≤ event.createdAt))
          presentRest
        rw [within_withLog, if_neg home] at later
        rw [if_pos terminal, later]
      · rw [if_neg terminal, ih store presentRest]

private theorem pruneStreamEvents_within (coherent : Coherent store) (before : Time) :
    (pruneStreamEvents before (within homes own store)).2 =
      within homes own (pruneStreamEvents before store).2 := by
  have present : ∀ entry ∈ store.events.entries, (store.runs.get? entry.1).isSome := by
    intro entry member
    obtain ⟨run, found⟩ := coherent.runOf ((Dict.mem_entries_iff _ _ _).mp member)
    rw [found]
    rfl
  exact pruneEach_within before store.events.entries store present

end Sweeps

end InMemorySessionStore

open InMemorySessionStore

/-- The draws that an operation on the whole store makes for one session. -/
def Operation.drawsFor (homes : Homes) (own : String) (ambient : Ambient)
    (store : InMemorySessionStore) : Operation → Ambient
  | .interruptWorkerRuns worker =>
    sweepDraws homes own (fun run => run.workerInstanceId = worker) ambient store
  | .reconcileOrphanedRuns worker =>
    sweepDraws homes own (fun run => run.workerInstanceId ≠ worker) ambient store
  | _ => ambient

theorem Operation.perform_within {homes : Homes} {own : String} {store : InMemorySessionStore}
    (operation : Operation) (ambient : Ambient)
    (everywhere : operation.address homes ambient = none) (coherent : Coherent store) :
    (operation.perform (operation.drawsFor homes own ambient store)
        (within homes own store)).2 = within homes own (operation.perform ambient store).2 := by
  cases operation <;> cases everywhere
  case initializeStore | ping | close => rfl
  case interruptWorkerRuns worker =>
    simp only [Operation.perform, wrap_apply]
    exact interruptMatching_within coherent _ ambient
  case reconcileOrphanedRuns worker =>
    simp only [Operation.perform, wrap_apply]
    exact interruptMatching_within coherent _ ambient
  case pruneStreamEvents before =>
    simp only [Operation.perform, wrap_apply]
    exact pruneStreamEvents_within coherent before

namespace InMemorySessionStore

/-- The script without the operations that are addressed to other sessions. What a session
draws stays the same. -/
def reduce (homes : Homes) (own : String) (store : InMemorySessionStore) :
    List (Ambient × Operation) → List (Ambient × Operation)
  | [] => []
  | (ambient, operation) :: rest =>
    let others := reduce homes own (operation.perform ambient store).2 rest
    match operation.address homes ambient with
    | some session => if session = own then (ambient, operation) :: others else others
    | none => (operation.drawsFor homes own ambient store, operation) :: others

/-- No key is used for two sessions, and the run of a reservation is at home in its session. -/
def ObeysScript (homes : Homes) (store : InMemorySessionStore) :
    List (Ambient × Operation) → Prop
  | [] => True
  | (ambient, operation) :: rest =>
    operation.Obeys homes ambient store ∧
      ObeysScript homes (operation.perform ambient store).2 rest

instance (homes : Homes) (ambient : Ambient) (store : InMemorySessionStore) :
    (operation : Operation) → Decidable (operation.Obeys homes ambient store)
  | .reserveRun request => inferInstanceAs (Decidable (Obeys request ambient homes store))
  | .initializeStore | .createSession _ _ _ | .getSession _ | .appendMessage _ _ _ _
  | .listMessages _ | .clearSession _ | .getRun _ | .markRunRunning _ _ | .incrementRunAttempt _
  | .appendStreamEvent _ _ _ | .listStreamEvents _ _ | .commitRunSuccess _ _ | .failRun _ _
  | .cancelRun _ _ | .interruptWorkerRuns _ | .reconcileOrphanedRuns _ | .pruneStreamEvents _
  | .ping | .close => .isTrue trivial

instance decideObeysScript (homes : Homes) (store : InMemorySessionStore) :
    (script : List (Ambient × Operation)) → Decidable (ObeysScript homes store script)
  | [] => inferInstanceAs (Decidable True)
  | (ambient, operation) :: rest =>
    have := decideObeysScript homes (operation.perform ambient store).2 rest
    inferInstanceAs (Decidable (_ ∧ _))

/-- The answered calls that are addressed to one session. -/
def addressedTo (homes : Homes) (own : String) (calls : List Call) : List Call :=
  calls.filter fun call => call.operation.address homes call.ambient = some own

variable {homes : Homes} {store : InMemorySessionStore}

theorem execute_cons (ambient : Ambient) (operation : Operation)
    (rest : List (Ambient × Operation)) :
    execute store ((ambient, operation) :: rest) =
      (⟨ambient, operation, (operation.perform ambient store).1⟩ ::
        (execute (operation.perform ambient store).2 rest).1,
        (execute (operation.perform ambient store).2 rest).2) := rfl

private theorem addressedTo_cons (own : String) (call : Call) (rest : List Call) :
    addressedTo homes own (call :: rest) =
      if call.operation.address homes call.ambient = some own
      then call :: addressedTo homes own rest else addressedTo homes own rest := by
  simp [addressedTo, List.filter_cons]

theorem execute_append (early late : List (Ambient × Operation)) :
    (execute store (early ++ late)).2 = (execute (execute store early).2 late).2 := by
  induction early generalizing store with
  | nil => rfl
  | cons entry rest ih => exact ih

theorem freshScript_append {early late : List (Ambient × Operation)} :
    FreshScript store (early ++ late) ↔
      FreshScript store early ∧ FreshScript (execute store early).2 late := by
  induction early generalizing store with
  | nil => simp [FreshScript, execute]
  | cons entry rest ih =>
    obtain ⟨ambient, operation⟩ := entry
    simp only [List.cons_append, FreshScript, ih, execute_cons, and_assoc]

theorem obeysScript_append {early late : List (Ambient × Operation)} :
    ObeysScript homes store (early ++ late) ↔
      ObeysScript homes store early ∧ ObeysScript homes (execute store early).2 late := by
  induction early generalizing store with
  | nil => simp [ObeysScript, execute]
  | cons entry rest ih =>
    obtain ⟨ambient, operation⟩ := entry
    simp only [List.cons_append, ObeysScript, ih, execute_cons, and_assoc]

theorem execute_within (own : String) (script : List (Ambient × Operation))
    (coherent : Coherent store) (housed : Housed homes store) (fresh : FreshScript store script)
    (obeys : ObeysScript homes store script) :
    addressedTo homes own (execute (within homes own store) (reduce homes own store script)).1 =
        addressedTo homes own (execute store script).1 ∧
      (execute (within homes own store) (reduce homes own store script)).2 =
        within homes own (execute store script).2 := by
  induction script generalizing store with
  | nil => exact ⟨rfl, rfl⟩
  | cons entry rest ih =>
    obtain ⟨ambient, operation⟩ := entry
    have answers : Answers store ⟨ambient, operation, (operation.perform ambient store).1⟩
      (operation.perform ambient store).2 := ⟨fresh.1, rfl⟩
    have later := ih (answers.coherent coherent)
      (operation.perform_housed coherent fresh.1 housed obeys.1) fresh.2 obeys.2
    rw [execute_cons, addressedTo_cons]
    cases target : operation.address homes ambient with
    | none =>
      have still : operation.address homes (operation.drawsFor homes own ambient store) = none := by
        cases operation <;> cases target <;> rfl
      rw [reduce, target, execute_cons, addressedTo_cons,
        operation.perform_within ambient target coherent]
      simp only [still, reduceCtorEq, ↓reduceIte]
      exact later
    | some session =>
      have confined := operation.perform_confined target coherent fresh.1 housed obeys.1
      by_cases chosen : session = own
      · subst chosen
        rw [reduce, target]
        simp only [↓reduceIte]
        rw [execute_cons, addressedTo_cons, confined.inside]
        simp only [target, ↓reduceIte]
        exact ⟨congrArg _ later.1, later.2⟩
      · have unseen := confined.outside (Ne.symm chosen)
        rw [reduce, target]
        simp only [chosen, Option.some.injEq, ↓reduceIte]
        rw [← unseen]
        exact later

theorem within_empty (homes : Homes) (own : String) : within homes own empty = empty := rfl

theorem empty_housed (homes : Homes) : Housed homes empty where
  runs found := by simp [empty] at found
  keys found := by simp [empty] at found

/-- A reachable store keeps every run at home. -/
theorem execute_housed (script : List (Ambient × Operation)) (coherent : Coherent store)
    (housed : Housed homes store) (fresh : FreshScript store script)
    (obeys : ObeysScript homes store script) : Housed homes (execute store script).2 := by
  induction script generalizing store with
  | nil => exact housed
  | cons entry rest ih =>
    obtain ⟨ambient, operation⟩ := entry
    have answers : Answers store ⟨ambient, operation, (operation.perform ambient store).1⟩
      (operation.perform ambient store).2 := ⟨fresh.1, rfl⟩
    exact ih (answers.coherent coherent)
      (operation.perform_housed coherent fresh.1 housed obeys.1) fresh.2 obeys.2

/-- What the store holds of one session. -/
structure SameSession (own : String) (store other : InMemorySessionStore) : Prop where
  session : store.sessions.get? own = other.sessions.get? own
  transcript : store.messages.get? own = other.messages.get? own
  runs : store.runs.values.filter (fun run => run.sessionId = own) =
    other.runs.values.filter fun run => run.sessionId = own
  logs : ∀ run ∈ store.runs.values, run.sessionId = own →
    store.events.get? run.id = other.events.get? run.id

private theorem within_same (coherent : Coherent store) (housed : Housed homes store)
    (own : String) :
    SameSession own (within homes own store) store where
  session := within_session
  transcript := within_transcript
  runs := by
    have kept := Dict.values_restrict (fun ref => decide (homes.run ref = own)) store.runs
      coherent.runId
    rw [show (within homes own store).runs.values = _ from kept, List.filter_filter]
    apply List.filter_congr
    intro run member
    obtain ⟨ref, found⟩ := (Dict.mem_values_iff _ _).mp member
    rw [coherent.runId found, housed.runs found, Bool.and_self]
  logs := by
    intro run member owned
    obtain ⟨ref, found⟩ := (Dict.mem_values_iff _ _).mp member
    have stored : store.runs.get? ref = some run ∧ homes.run ref = own := by
      simpa [within, Dict.get?_restrict, and_comm] using found
    rw [coherent.runId stored.1]
    exact within_log stored.2

/-- What the store holds, whatever the order of its runs and sessions. -/
structure SameContent (store other : InMemorySessionStore) : Prop where
  sessions : store.sessions.get? = other.sessions.get?
  messages : store.messages.get? = other.messages.get?
  runs : store.runs.get? = other.runs.get?
  events : store.events.get? = other.events.get?
  idempotency : store.idempotency.get? = other.idempotency.get?
  ready : store.ready = other.ready

private theorem SameContent.of_within {other : InMemorySessionStore}
    (same : ∀ own, within homes own store = within homes own other) :
    SameContent store other where
  sessions := by
    funext own
    rw [← within_session, same, within_session]
  messages := by
    funext own
    rw [← within_transcript, same, within_transcript]
  runs := by
    funext ref
    rw [← within_run rfl, same, within_run rfl]
  events := by
    funext ref
    rw [← within_log rfl, same, within_log rfl]
  idempotency := by
    funext key
    rw [← within_key rfl, same, within_key rfl]
  ready := by
    have shown : (within homes "" store).ready = (within homes "" other).ready :=
      congrArg InMemorySessionStore.ready (same "")
    exact shown

private theorem performs_commute (coherent : Coherent store) (housed : Housed homes store)
    {first second : Ambient × Operation}
    (here : first.2.address homes first.1 = some left)
    (there : second.2.address homes second.1 = some right) (different : left ≠ right)
    (freshForth : FreshScript store [first, second])
    (freshBack : FreshScript store [second, first])
    (obeysForth : ObeysScript homes store [first, second])
    (obeysBack : ObeysScript homes store [second, first]) :
    (second.2.perform second.1 (first.2.perform first.1 store).2).1 =
        (second.2.perform second.1 store).1 ∧
      (first.2.perform first.1 (second.2.perform second.1 store).2).1 =
        (first.2.perform first.1 store).1 ∧
      SameContent (execute store [first, second]).2 (execute store [second, first]).2 := by
  have firstAnswers : Answers store ⟨first.1, first.2, (first.2.perform first.1 store).1⟩
    (first.2.perform first.1 store).2 := ⟨freshForth.1, rfl⟩
  have secondAnswers : Answers store ⟨second.1, second.2, (second.2.perform second.1 store).1⟩
    (second.2.perform second.1 store).2 := ⟨freshBack.1, rfl⟩
  have early := first.2.perform_confined here coherent freshForth.1 housed obeysForth.1
  have between := second.2.perform_confined there coherent freshBack.1 housed obeysBack.1
  have late := first.2.perform_confined here (secondAnswers.coherent coherent) freshBack.2.1
    (second.2.perform_housed coherent freshBack.1 housed obeysBack.1) obeysBack.2.1
  have after := second.2.perform_confined there (firstAnswers.coherent coherent) freshForth.2.1
    (first.2.perform_housed coherent freshForth.1 housed obeysForth.1) obeysForth.2.1
  refine ⟨?_, ?_, ?_⟩
  · exact (Confined.undisturbed different.symm between early after).1
  · exact (Confined.undisturbed different early between late).1
  · exact .of_within (Confined.commute different early late between after)

/-- Deleting what is addressed to other sessions changes nothing that a session sees, and
operations that are addressed to different sessions commute. -/
theorem sessions_isolated (homes : Homes) (script : List (Ambient × Operation))
    (fresh : FreshScript empty script) (obeys : ObeysScript homes empty script) :
    (∀ own,
      addressedTo homes own (execute empty (reduce homes own empty script)).1 =
          addressedTo homes own (execute empty script).1 ∧
        SameSession own (execute empty (reduce homes own empty script)).2
          (execute empty script).2) ∧
    ∀ (first second : Ambient × Operation) (left right : String),
      first.2.address homes first.1 = some left → second.2.address homes second.1 = some right →
      left ≠ right →
      FreshScript empty (script ++ [first, second]) →
      FreshScript empty (script ++ [second, first]) →
      ObeysScript homes empty (script ++ [first, second]) →
      ObeysScript homes empty (script ++ [second, first]) →
      ((second.2.perform second.1 (first.2.perform first.1 (execute empty script).2).2).1 =
          (second.2.perform second.1 (execute empty script).2).1 ∧
        (first.2.perform first.1 (second.2.perform second.1 (execute empty script).2).2).1 =
          (first.2.perform first.1 (execute empty script).2).1 ∧
        SameContent (execute empty (script ++ [first, second])).2
          (execute empty (script ++ [second, first])).2) := by
  have coherent : Coherent (execute empty script).2 :=
    (execute_history script empty fresh).coherent empty_coherent
  have housed := execute_housed script empty_coherent (empty_housed homes) fresh obeys
  constructor
  · intro own
    obtain ⟨calls, final⟩ := execute_within own script empty_coherent (empty_housed homes) fresh
      obeys
    rw [within_empty] at calls final
    rw [final]
    exact ⟨calls, within_same coherent housed own⟩
  · intro first second left right here there different freshForth freshBack obeysForth obeysBack
    rw [execute_append, execute_append]
    exact performs_commute coherent housed here there different
      (freshScript_append.mp freshForth).2 (freshScript_append.mp freshBack).2
      (obeysScript_append.mp obeysForth).2 (obeysScript_append.mp obeysBack).2

end InMemorySessionStore

/-- Two sessions with a run each, where one sweep ends both runs. -/
def sampleCrossing : List (Ambient × Operation) :=
  [(.sample "a" "a", .createSession none (some "lake") none),
   (.sample "b" "b", .createSession none (some "river") none),
   (.sample "c" "flow", .reserveRun (.sample (some "river") (some "other") "hash")),
   (.sample "d" "run", .reserveRun (.sample (some "lake") (some "key") "hash")),
   (.sample "e" "f", .interruptWorkerRuns "worker")]

def Homes.sample : Homes where
  key key := if key = "other" then "river" else "lake"
  run ref := if ref = "flow" then "river" else "lake"

theorem sessions_isolated_sampleCrossing :
    SameSession "lake" (execute empty (reduce .sample "lake" empty sampleCrossing)).2
        (execute empty sampleCrossing).2 ∧
      SameContent
        (execute empty (sampleCrossing ++ [(.sample "g" "g", .clearSession "lake"),
          (.sample "h" "h", .clearSession "river")])).2
        (execute empty (sampleCrossing ++ [(.sample "h" "h", .clearSession "river"),
          (.sample "g" "g", .clearSession "lake")])).2 := by
  obtain ⟨unaffected, commute⟩ := sessions_isolated .sample sampleCrossing (by decide) (by decide)
  refine ⟨(unaffected "lake").2, ?_⟩
  have apart := commute (.sample "g" "g", .clearSession "lake")
    (.sample "h" "h", .clearSession "river") "lake" "river" rfl rfl (by decide) (by decide)
    (by decide) (by decide) (by decide)
  exact apart.2.2

end DayuAgent
