import DayuAgent.Database.Service

namespace DayuAgent

open Library

/-- A store seen from its event logs: the run, the stored events and their replay. -/
structure LogView (State : Type) where
  row : State → String → Option AgentRun
  log : State → String → List StreamEvent
  listed : State → String → Nat → Except PyException (List StreamEvent)

/-- A state of a store with every event that was ever added to each log. -/
abbrev Noted (State : Type) := State × (String → List StreamEvent)

section Views

variable {State Label : Type} (view : LogView State)

/-- The run is active. -/
def LogView.OnActive (noted : Noted State) (ref : String) : Prop :=
  ∀ run ∈ view.row noted.1 ref, run.Active

instance (noted : Noted State) : DecidablePred (view.OnActive noted) := fun ref =>
  inferInstanceAs (Decidable (∀ run ∈ view.row noted.1 ref, run.Active))

/-- No event of the run has been removed. -/
def LogView.OnWhole (noted : Noted State) (ref : String) : Prop :=
  (view.log noted.1 ref).length = (noted.2 ref).length

instance (noted : Noted State) : DecidablePred (view.OnWhole noted) := fun _ =>
  inferInstanceAs (Decidable (_ = _))

/-- The event that was added last to the log of the run has not been removed. -/
def LogView.OnLast (noted : Noted State) (ref : String) : Prop :=
  ∀ event ∈ (noted.2 ref).getLast?, event ∈ view.log noted.1 ref

/-- The log of a run ends with one terminal event, and reading past it yields nothing. -/
structure ClosedBy (noted : Noted State) (ref : String) (last : StreamEvent) : Prop where
  ends : last.Ends
  issued : ∃ front, noted.2 ref = front ++ [last] ∧ ∀ event ∈ front, ¬ event.Ends
  stored : last ∈ view.log noted.1 ref → (view.log noted.1 ref).getLast? = some last
  resumed : view.listed noted.1 ref last.sequence = .ok []

/-- Wherever a run of the store leads, the logs of terminal runs are closed, and later no
event is added to them. -/
structure ClosesLogs (step : Noted State → Label → Noted State → Prop) (start : Noted State) :
    Prop where
  closed : Run step start labels noted → view.row noted.1 ref = some run → run.Terminal →
    ∃ last, ClosedBy view noted ref last
  final : Run step start labels noted → view.row noted.1 ref = some run → run.Terminal →
    Run step noted more later → later.2 ref = noted.2 ref ∧
      (view.log later.1 ref).Sublist (view.log noted.1 ref)

/-- The numbers of each log ascend in the order of assignment, and reading past an event
hides no stored one that was added after it. -/
structure NumbersOnce (step : Noted State → Label → Noted State → Prop) (start : Noted State) :
    Prop where
  increasing : Run step start labels noted →
    (noted.2 ref).Pairwise fun first second => first.sequence < second.sequence
  visible : Run step start labels noted → [earlier, later].Sublist (noted.2 ref) →
    later ∈ view.log noted.1 ref →
    ∃ events, view.listed noted.1 ref earlier.sequence = .ok events ∧ later ∈ events

/-- An invariant of a store under which every run agrees with its journal. -/
structure KeepsJournals (late : Prop) (step : Noted State → Label → Noted State → Prop)
    (Holds : Noted State → Prop) : Prop where
  closes : Holds noted → ∀ ref,
    Closes late (view.row noted.1 ref) ⟨view.log noted.1 ref, noted.2 ref⟩
  listed : Holds noted → view.row noted.1 ref = some run → ∀ count, ∃ events,
    view.listed noted.1 ref count = .ok events ∧
      ∀ event, event ∈ events ↔ event ∈ view.log noted.1 ref ∧ count < event.sequence
  preserved : Holds before → step before label after → Holds after
  frozen : Holds before → step before label after → view.row before.1 ref = some run →
    run.Terminal → view.row after.1 ref = some run
  grows : Holds before → step before label after → ∀ ref, ∃ added,
    after.2 ref = before.2 ref ++ added ∧
      (view.log after.1 ref = view.log before.1 ref ++ added ∨
        added = [] ∧ (view.log after.1 ref).Sublist (view.log before.1 ref))

namespace KeepsJournals

variable {view} {late : Prop} {step : Noted State → Label → Noted State → Prop}
  {Holds : Noted State → Prop} {noted before after : Noted State}

/-- A step adds nothing to the log of a terminal run. -/
theorem still (keeps : KeepsJournals view late step Holds) (closed : ¬ late) (holds : Holds before)
    (taken : step before label after) (found : view.row before.1 ref = some run)
    (terminal : run.Terminal) : after.2 ref = before.2 ref ∧
      (view.log after.1 ref).Sublist (view.log before.1 ref) := by
  obtain ⟨added, longer, grows⟩ := keeps.grows holds taken ref
  have first := keeps.closes holds ref
  have second := keeps.closes (keeps.preserved holds taken) ref
  obtain ⟨front, last, issued, ends, _⟩ := first.ended closed found terminal
  obtain ⟨later, final, reissued, _, quiet⟩ :=
    second.ended closed (keeps.frozen holds taken found terminal) terminal
  have none : added = [] := by
    rcases List.eq_nil_or_concat added with empty | ⟨rest, event, rfl⟩
    · exact empty
    · have same : later ++ [final] = (front ++ [last] ++ rest) ++ [event] := by
        rw [← issued, ← reissued, longer]
        simp
      obtain ⟨early, _⟩ := List.append_inj' same rfl
      exact (quiet last (by simp [early]) ends).elim
  subst none
  refine ⟨by simpa using longer, ?_⟩
  rcases grows with same | ⟨_, fewer⟩
  · rw [same, List.append_nil]
  · exact fewer

private theorem closedBy (keeps : KeepsJournals view late step Holds) (closed : ¬ late)
    (holds : Holds noted) (found : view.row noted.1 ref = some run) (terminal : run.Terminal) :
    ∃ last, ClosedBy view noted ref last := by
  have closes := keeps.closes holds ref
  obtain ⟨front, last, issued, ends, quiet⟩ := closes.ended closed found terminal
  have final : (noted.2 ref).getLast? = some last := by
    have shown : noted.2 ref = front ++ [last] := issued
    rw [shown, List.getLast?_concat]
  refine ⟨last, ends, ⟨front, issued, quiet⟩, closes.sound.stored_last final, ?_⟩
  obtain ⟨events, listed, exact⟩ := keeps.listed holds found last.sequence
  rw [listed]
  refine congrArg Except.ok (List.eq_nil_iff_forall_not_mem.mpr fun event member => ?_)
  obtain ⟨stored, beyond⟩ := (exact event).mp member
  have past : event ∈ (view.log noted.1 ref).filter fun other =>
      last.sequence < other.sequence := by
    simp [stored, beyond]
  have nothing := closes.sound.exhausted final
  rw [nothing] at past
  simp at past

theorem closesLogs (keeps : KeepsJournals view late step Holds) (closed : ¬ late)
    (initially : Holds start) : ClosesLogs view step start where
  closed run found terminal :=
    keeps.closedBy closed (run.invariant initially keeps.preserved) found terminal
  final {_ noted ref record _ reached} earlier found terminal later := by
    have holds := earlier.invariant initially keeps.preserved
    suffices both : (Holds reached ∧ view.row reached.1 ref = some record) ∧
        reached.2 ref = noted.2 ref ∧
        (view.log reached.1 ref).Sublist (view.log noted.1 ref) from both.2
    induction later with
    | nil => exact ⟨⟨holds, found⟩, rfl, List.Sublist.refl _⟩
    | snoc _ last ih =>
      obtain ⟨⟨kept, present⟩, same, fewer⟩ := ih
      obtain ⟨again, less⟩ := keeps.still closed kept last present terminal
      exact ⟨⟨keeps.preserved kept last, keeps.frozen kept last present terminal⟩,
        again.trans same, less.trans fewer⟩

theorem numbersOnce (keeps : KeepsJournals view late step Holds) (initially : Holds start) :
    NumbersOnce view step start where
  increasing {_ _ ref} run :=
    (keeps.closes (run.invariant initially keeps.preserved) ref).sound.increasing
  visible {_ noted earlier later ref} run order stored := by
    have holds := run.invariant initially keeps.preserved
    have closes := keeps.closes holds ref
    cases found : view.row noted.1 ref with
    | none =>
      have nothing := closes.absent found
      have empty : noted.2 ref = [] := nothing
      simp [empty] at order
    | some record =>
      obtain ⟨events, listed, exact⟩ := keeps.listed holds found earlier.sequence
      refine ⟨events, listed, (exact later).mpr ⟨stored, ?_⟩⟩
      simpa [stored] using closes.sound.visible order stored

end KeepsJournals

end Views

namespace InMemorySessionStore

def logView : LogView InMemorySessionStore where
  row store ref := store.runs.get? ref
  log := eventLog
  listed store ref afterSequence := (listStreamEvents ref afterSequence store).1

/-- One answered call with what it adds to the logs. Callers publish nothing by hand but
deltas, and those only for runs where they are allowed. -/
def Notes (allowed : Noted InMemorySessionStore → String → Prop)
    (before : Noted InMemorySessionStore) (call : Call) (after : Noted InMemorySessionStore) :
    Prop :=
  Recording eventLog Answers before call after ∧ call.operation.Publishes ∧
    ∀ ref ∈ call.operation.appendsTo, allowed before ref

variable {late : Prop} {allowed : Noted InMemorySessionStore → String → Prop}

private theorem Notes.journaled (taken : Notes allowed before call after)
    (coherent : Coherent before.1)
    (journaled : Journaled late before.1 before.2)
    (timely : ∀ ref type payload, call.operation = .appendStreamEvent ref type payload →
      Timely late before.1 before.2 ref) :
    ∃ added : String → List StreamEvent, after.2 = (fun ref => before.2 ref ++ added ref) ∧
      (∀ ref, Grows before.1 after.1 ref (added ref)) ∧ Journaled late after.1 after.2 := by
  obtain ⟨⟨answers, noted⟩, publishes, _⟩ := taken
  obtain ⟨added, grows, agrees⟩ := answers.journaled coherent publishes timely journaled
  have same : after.2 = fun ref => before.2 ref ++ added ref := by
    funext ref
    rw [noted, (grows ref).drop]
  exact ⟨added, same, grows, same ▸ agrees⟩

theorem keeps_logs (timely : ∀ {noted ref}, Journaled late noted.1 noted.2 →
      allowed noted ref → Timely late noted.1 noted.2 ref) :
    KeepsJournals logView late (Notes allowed) fun noted =>
      Coherent noted.1 ∧ Journaled late noted.1 noted.2 := by
  have permits : ∀ {before call after}, Journaled late before.1 before.2 →
      Notes allowed before call after → ∀ ref type payload,
        call.operation = .appendStreamEvent ref type payload →
          Timely late before.1 before.2 ref := fun holds taken ref type payload same =>
    timely holds (taken.2.2 ref (by rw [same]; rfl))
  constructor
  · exact fun holds => holds.2
  · intro noted ref run ⟨coherent, _⟩ found count
    obtain ⟨log, read⟩ := coherent.logOf found
    refine ⟨_, congrArg Prod.fst (listStreamEvents_ok found read count), fun event => ?_⟩
    simp [logView, eventLog, read, List.mem_filter]
  · intro before call after ⟨coherent, holds⟩ taken
    obtain ⟨_, _, _, agrees⟩ := taken.journaled coherent holds (permits holds taken)
    exact ⟨taken.1.1.coherent coherent, agrees⟩
  · exact fun holds taken found terminal => taken.1.1.terminal holds.1 found terminal
  · intro before call after ⟨coherent, holds⟩ taken ref
    obtain ⟨added, same, grows, _⟩ := taken.journaled coherent holds (permits holds taken)
    exact ⟨added ref, congrFun same ref, grows ref⟩

theorem onActive_timely {noted : Noted InMemorySessionStore}
    (journaled : Journaled late noted.1 noted.2) (active : logView.OnActive noted ref) :
    Timely late noted.1 noted.2 ref := by
  refine ⟨.inr active, ?_⟩
  cases found : noted.1.runs.get? ref with
  | none =>
    have none := (journaled ref).absent found
    have nothing : eventLog noted.1 ref = [] :=
      List.sublist_nil.mp (none ▸ (journaled ref).sound.kept)
    rw [nothing, show noted.2 ref = [] from none]
  | some run => exact congrArg List.length ((journaled ref).complete found (active run found))

end InMemorySessionStore

section Service

variable {late : Prop} {calls : Workload}

def Cluster.logView : LogView (Cluster Reply) where
  row cluster := cluster.database.row
  log cluster := cluster.database.eventLog
  listed cluster ref afterSequence :=
    SQLAlchemyRuntimeStore.listStreamEvents cluster.database ref afterSequence

/-- The run that a call appends an event to by hand. -/
def LockingCall.appendsTo : LockingCall → Option String
  | .appendStreamEvent ref _ _ => some ref
  | _ => none

/-- A statement that numbers a delta does so for a run where it is allowed. -/
def ServiceAction.Permitted (calls : Workload) (allowed : Noted (Cluster Reply) → String → Prop)
    (before : Noted (Cluster Reply)) : ServiceAction → Prop
  | .statement process => before.1.Counts process →
      ∀ ref ∈ (calls process).1.appendsTo, allowed before ref
  | .createSession _ | .prune _ _ => True

/-- One action of the service with what it adds to the logs. -/
def Cluster.Notes (calls : Workload) (allowed : Noted (Cluster Reply) → String → Prop)
    (before : Noted (Cluster Reply)) (action : ServiceAction) (after : Noted (Cluster Reply)) :
    Prop :=
  Recording (fun cluster => cluster.database.eventLog) Serves before action after ∧
    action.Permitted calls allowed before

variable {allowed : Noted (Cluster Reply) → String → Prop}

private theorem replayed_log {database : Database} (found : database.row ref = some run) : ∃ events,
    SQLAlchemyRuntimeStore.listStreamEvents database ref count = .ok events ∧
      ∀ event, event ∈ events ↔ event ∈ database.eventLog ref ∧ count < event.sequence := by
  have present : database.runs.get? ref = some run := found
  refine ⟨_, by simp only [SQLAlchemyRuntimeStore.listStreamEvents, present]; rfl, fun event => ?_⟩
  simp [Database.eventLog, and_assoc]

theorem service_keeps_logs (timely : ∀ {noted ref},
      (chronicleOf noted.1 noted.2).Sound late → allowed noted ref →
      Timely late ref (chronicleOf noted.1 noted.2)) :
    KeepsJournals Cluster.logView late (Cluster.Notes calls allowed) fun noted =>
      Upheld late calls noted.1 noted.2 := by
  have recorded : ∀ {before action after}, Cluster.Notes calls allowed before action after →
      after.2 = before.1.recorded after.1 before.2 := fun taken => funext taken.1.2
  constructor
  · exact fun holds => holds.sound.closes
  · exact fun _ found _ => replayed_log found
  · intro before action after holds taken
    rw [recorded taken]
    refine holds.serves taken.1.1 fun process same counts => ?_
    have permitted : (ServiceAction.statement process).Permitted calls allowed before :=
      same ▸ taken.2
    have permits := permitted counts
    cases call : (calls process).1 with
    | appendStreamEvent ref type payload =>
      exact timely holds.sound (permits ref (by rw [call]; rfl))
    | _ => trivial
  · intro before action after ref run holds taken found terminal
    rcases holds.moves taken.1.1 ref with ⟨added, step, _⟩ | ⟨same, _⟩
    · have row : before.1.database.row ref = some run := found
      rw [row] at step
      exact step.frozen terminal
    · exact same.trans found
  · intro before action after holds taken ref
    rcases holds.moves taken.1.1 ref with ⟨added, _, longer⟩ | ⟨_, fewer⟩
    · refine ⟨added, ?_, .inl longer⟩
      rw [recorded taken, Cluster.recorded, longer, List.drop_left]
    · refine ⟨[], ?_, .inr ⟨rfl, fewer⟩⟩
      rw [recorded taken, Cluster.recorded, List.drop_eq_nil_of_le fewer.length_le]

theorem service_onActive_timely {noted : Noted (Cluster Reply)}
    (sound : (chronicleOf noted.1 noted.2).Sound late)
    (active : Cluster.logView.OnActive noted ref) :
    Timely late ref (chronicleOf noted.1 noted.2) := by
  refine ⟨.inr active, ?_⟩
  cases found : noted.1.database.row ref with
  | none =>
    have none : noted.2 ref = [] := (sound.closes ref).absent found
    simp [chronicleOf, none]
  | some run => exact sound.stored found (active run found)

end Service

section Schedules

instance Operation.decidePublishes : (operation : Operation) → Decidable operation.Publishes
  | .appendStreamEvent _ type _ => inferInstanceAs (Decidable (type = .responseDelta))
  | .initializeStore | .createSession .. | .getSession _ | .appendMessage .. | .listMessages _
  | .clearSession _ | .reserveRun _ | .getRun _ | .markRunRunning .. | .incrementRunAttempt _
  | .listStreamEvents .. | .commitRunSuccess .. | .failRun .. | .cancelRun ..
  | .interruptWorkerRuns _ | .reconcileOrphanedRuns _ | .pruneStreamEvents _ | .ping | .close =>
    inferInstanceAs (Decidable True)

instance (calls : Workload) (allowed : Noted (Cluster Reply) → String → Prop)
    [∀ noted, DecidablePred (allowed noted)] (before : Noted (Cluster Reply)) :
    DecidablePred (ServiceAction.Permitted calls allowed before)
  | .statement process => inferInstanceAs (Decidable (before.1.Counts process →
      ∀ ref ∈ (calls process).1.appendsTo, allowed before ref))
  | .createSession _ | .prune _ _ => inferInstanceAs (Decidable True)

def InMemorySessionStore.answerNext (store : InMemorySessionStore) (entry : Ambient × Operation) :
    Option InMemorySessionStore :=
  if entry.1.Fresh store then some (entry.2.perform entry.1 store).2 else none

private theorem InMemorySessionStore.answerNext_notes
    {allowed : Noted InMemorySessionStore → String → Prop}
    [∀ noted, DecidablePred (allowed noted)] {entry : Ambient × Operation}
    (taken : admitted (recordNext eventLog answerNext) (fun before entry _ =>
      entry.2.Publishes ∧ ∀ ref ∈ entry.2.appendsTo, allowed before ref) before entry =
        some after) : ∃ call, Notes allowed before call after := by
  obtain ⟨moved, tested⟩ := admitted_some taken
  obtain ⟨answered, added⟩ := recordNext_recording moved
  unfold answerNext at answered
  split at answered
  · next fresh =>
    refine ⟨⟨entry.1, entry.2, (entry.2.perform entry.1 before.1).1⟩, ⟨⟨fresh, ?_⟩, added⟩, tested⟩
    rw [← Option.some.inj answered]
  · contradiction

theorem InMemorySessionStore.follow_notes (script : List (Ambient × Operation))
    {allowed : Noted InMemorySessionStore → String → Prop}
    [∀ noted, DecidablePred (allowed noted)] {check : Noted InMemorySessionStore → Prop}
    [DecidablePred check]
    (passed : (follow (admitted (recordNext eventLog answerNext) fun before entry _ =>
        entry.2.Publishes ∧ ∀ ref ∈ entry.2.appendsTo, allowed before ref)
      (empty, fun _ => []) script).any (fun final => check final) = true) :
    ∃ calls noted, Run (Notes allowed) (empty, fun _ => []) calls noted ∧ check noted := by
  obtain ⟨noted, run, checked⟩ := follow_reaches passed
  have answered : ∃ calls, Run (Notes allowed) (empty, fun _ => []) calls noted :=
    run.relabel answerNext_notes
  obtain ⟨calls, history⟩ := answered
  exact ⟨calls, noted, history, checked⟩

theorem Cluster.follow_notes {calls : Workload} {actions : List ServiceAction}
    {allowed : Noted (Cluster Reply) → String → Prop} [∀ noted, DecidablePred (allowed noted)]
    {check : Noted (Cluster Reply) → Prop} [DecidablePred check]
    (passed : (follow (admitted (recordNext (fun cluster => cluster.database.eventLog)
        Cluster.serve) fun before action _ => action.Permitted calls allowed before)
      (calls.start, fun _ => []) actions).any (fun final => check final) = true) :
    ∃ noted, Run (Cluster.Notes calls allowed) (calls.start, fun _ => []) actions noted ∧
      check noted := by
  obtain ⟨noted, run, checked⟩ := follow_reaches passed
  refine ⟨noted, run.mono fun taken => ?_, checked⟩
  obtain ⟨moved, tested⟩ := admitted_some taken
  exact ⟨recordNext_recording moved, tested⟩

end Schedules

/-- In both stores: while deltas reach active runs only, the log of a terminal run is closed.
PostgreSQL deltas are numbered under the row lock of their run. -/
theorem terminal_logs_closed {calls : Workload}
    (publishes : ∀ process, (calls process).1.Publishes) :
    ClosesLogs InMemorySessionStore.logView
      (InMemorySessionStore.Notes InMemorySessionStore.logView.OnActive)
      (InMemorySessionStore.empty, fun _ => []) ∧
    ClosesLogs Cluster.logView (Cluster.Notes calls Cluster.logView.OnActive)
      (calls.start, fun _ => []) := by
  constructor
  · exact (InMemorySessionStore.keeps_logs InMemorySessionStore.onActive_timely).closesLogs
      not_false ⟨InMemorySessionStore.empty_coherent, InMemorySessionStore.empty_journaled False⟩
  · exact (service_keeps_logs service_onActive_timely).closesLogs not_false
      (start_upheld publishes)

/-- A run is cancelled while the append of its next delta waits. -/
def lateDelta : Workload
  | 0 => (.reserveRun (.sample none none "hash"), .sample "lake" "run")
  | 1 => (.cancelRun "run" "worker", .sample "b" "b")
  | _ => (.appendStreamEvent "run" .responseDelta [], .sample "c" "c")

def lateSchedule : List ServiceAction :=
  [0, 0, 0, 0, 1, 1, 1, 1, 1, 2, 2, 2, 2].map .statement

/-- The last event of a cancelled run is a delta. -/
def Reopened (view : LogView State) (noted : Noted State) : Prop :=
  ((view.row noted.1 "run").map (·.status)) = some .cancelled ∧
    ((noted.2 "run").getLast?.map (·.type)) = some .responseDelta

instance (view : LogView State) (noted : Noted State) : Decidable (Reopened view noted) :=
  inferInstanceAs (Decidable (_ ∧ _))

theorem cancelled_terminal {row : Option AgentRun}
    (cancelled : row.map (·.status) = some .cancelled) : ∃ run, row = some run ∧ run.Terminal := by
  obtain ⟨run, found, status⟩ := Option.map_eq_some_iff.mp cancelled
  exact ⟨run, found, by simp [AgentRun.Terminal, status, terminalRunStatuses]⟩

private theorem ClosesLogs.not_reopened {view : LogView State} (closes : ClosesLogs view step start)
    (run : Run step start labels noted) : ¬ Reopened view noted := by
  intro ⟨cancelled, delta⟩
  obtain ⟨record, found, terminal⟩ := cancelled_terminal cancelled
  obtain ⟨closing, closed⟩ := closes.closed run found terminal
  obtain ⟨front, issued, _⟩ := closed.issued
  rw [issued, List.getLast?_concat, Option.map_some, Option.some.injEq] at delta
  exact not_ends_of_type delta (by decide) closed.ends

/-- The same in memory: the delta follows the cancellation. -/
def lateDeltaScript : List (Ambient × Operation) :=
  [(.sample "lake" "run", .reserveRun (.sample none none "hash")),
   (.sample "b" "b", .cancelRun "run" "worker"),
   (.sample "c" "c", .appendStreamEvent "run" .responseDelta [])]

theorem lateDelta_publishes (process : Nat) : (lateDelta process).1.Publishes := by
  match process with
  | 0 | 1 => trivial
  | _ + 2 => rfl

theorem late_deltas_reopen_logs :
    ¬ ClosesLogs InMemorySessionStore.logView (InMemorySessionStore.Notes fun _ _ => True)
      (InMemorySessionStore.empty, fun _ => []) ∧
    (∀ process, (lateDelta process).1.Publishes) ∧
    ¬ ClosesLogs Cluster.logView (Cluster.Notes lateDelta fun _ _ => True)
      (lateDelta.start, fun _ => []) := by
  refine ⟨fun closes => ?_, lateDelta_publishes, fun closes => ?_⟩
  · obtain ⟨calls, noted, run, cancelled, delta⟩ : ∃ calls noted,
        Run (InMemorySessionStore.Notes fun _ _ => True) (InMemorySessionStore.empty, fun _ => [])
          calls noted ∧ Reopened InMemorySessionStore.logView noted :=
      InMemorySessionStore.follow_notes lateDeltaScript (by decide +kernel)
    exact (closes.not_reopened run) ⟨cancelled, delta⟩
  · obtain ⟨noted, run, reopened⟩ : ∃ noted, Run (Cluster.Notes lateDelta fun _ _ => True)
        (lateDelta.start, fun _ => []) lateSchedule noted ∧ Reopened Cluster.logView noted :=
      Cluster.follow_notes (by decide +kernel)
    exact closes.not_reopened run reopened

/-- The deltas of a run arrive before it is cancelled. -/
def earlyDelta : Workload
  | 0 => (.reserveRun (.sample none none "hash"), .sample "lake" "run")
  | 1 => (.appendStreamEvent "run" .responseDelta [], .sample "b" "b")
  | _ => (.cancelRun "run" "worker", .sample "c" "c")

def earlySchedule : List ServiceAction :=
  [0, 0, 0, 0, 1, 1, 1, 1, 2, 2, 2, 2, 2].map .statement

def earlyDeltaScript : List (Ambient × Operation) :=
  [(.sample "lake" "run", .reserveRun (.sample none none "hash")),
   (.sample "b" "b", .appendStreamEvent "run" .responseDelta []),
   (.sample "c" "c", .cancelRun "run" "worker")]

private theorem earlyDelta_publishes (process : Nat) : (earlyDelta process).1.Publishes := by
  match process with
  | 0 => trivial
  | 1 => rfl
  | _ + 2 => trivial

theorem terminal_logs_closed_earlyDelta :
    (∃ calls noted last, Run (InMemorySessionStore.Notes InMemorySessionStore.logView.OnActive)
      (InMemorySessionStore.empty, fun _ => []) calls noted ∧
        ClosedBy InMemorySessionStore.logView noted "run" last) ∧
    ∃ noted last, Run (Cluster.Notes earlyDelta Cluster.logView.OnActive)
      (earlyDelta.start, fun _ => []) earlySchedule noted ∧
        ClosedBy Cluster.logView noted "run" last := by
  constructor
  · obtain ⟨calls, noted, run, cancelled⟩ : ∃ calls noted,
        Run (InMemorySessionStore.Notes InMemorySessionStore.logView.OnActive)
          (InMemorySessionStore.empty, fun _ => []) calls noted ∧
        (InMemorySessionStore.logView.row noted.1 "run").map (·.status) = some .cancelled :=
      InMemorySessionStore.follow_notes earlyDeltaScript (by decide +kernel)
    obtain ⟨record, found, terminal⟩ := cancelled_terminal cancelled
    obtain ⟨last, closed⟩ := (terminal_logs_closed earlyDelta_publishes).1.closed run found terminal
    exact ⟨calls, noted, last, run, closed⟩
  · obtain ⟨noted, run, cancelled⟩ : ∃ noted,
        Run (Cluster.Notes earlyDelta Cluster.logView.OnActive) (earlyDelta.start, fun _ => [])
          earlySchedule noted ∧
        (Cluster.logView.row noted.1 "run").map (·.status) = some .cancelled :=
      Cluster.follow_notes (by decide +kernel)
    obtain ⟨record, found, terminal⟩ := cancelled_terminal cancelled
    obtain ⟨last, closed⟩ :=
      (terminal_logs_closed earlyDelta_publishes).2.closed run found terminal
    exact ⟨noted, last, run, closed⟩

/-- In both stores no number is used twice, and none is passed over: in memory while deltas
reach runs that lost no event, in PostgreSQL while they reach runs that kept their last one. -/
theorem sequences_used_once {calls : Workload}
    (publishes : ∀ process, (calls process).1.Publishes) :
    NumbersOnce InMemorySessionStore.logView
      (InMemorySessionStore.Notes InMemorySessionStore.logView.OnWhole)
      (InMemorySessionStore.empty, fun _ => []) ∧
    NumbersOnce Cluster.logView (Cluster.Notes calls Cluster.logView.OnLast)
      (calls.start, fun _ => []) := by
  constructor
  · exact (InMemorySessionStore.keeps_logs fun _ whole => ⟨.inl trivial, whole⟩).numbersOnce
      ⟨InMemorySessionStore.empty_coherent, InMemorySessionStore.empty_journaled True⟩
  · exact (service_keeps_logs fun _ last => ⟨.inl trivial, last⟩).numbersOnce
      (start_upheld publishes)

/-- A cancelled run is pruned before its next delta arrives. -/
def prunedScript : List (Ambient × Operation) :=
  [(.sample "lake" "run", .reserveRun (.sample none none "hash")),
   (.sample "b" "b", .cancelRun "run" "worker"),
   (.sample "c" "c", .pruneStreamEvents 100),
   (.sample "d" "d", .appendStreamEvent "run" .responseDelta [])]

def prunedSchedule : List ServiceAction :=
  [0, 0, 0, 0, 1, 1, 1, 1, 1].map .statement ++
    .prune 100 (fun event => event.createdAt < 100) :: [2, 2, 2, 2].map .statement

private theorem NumbersOnce.not_repeated {view : LogView State}
    (numbers : NumbersOnce view step start)
    (run : Run step start labels noted) : (noted.2 ref).map (·.sequence) ≠ [1, 1] := by
  intro repeated
  have ascending : ((noted.2 ref).map (·.sequence)).Pairwise (· < ·) :=
    List.pairwise_map.mpr (numbers.increasing run)
  rw [repeated] at ascending
  simp at ascending

theorem pruned_sequences_reused :
    ¬ NumbersOnce InMemorySessionStore.logView (InMemorySessionStore.Notes fun _ _ => True)
      (InMemorySessionStore.empty, fun _ => []) ∧
    (∀ process, (lateDelta process).1.Publishes) ∧
    ¬ NumbersOnce Cluster.logView (Cluster.Notes lateDelta fun _ _ => True)
      (lateDelta.start, fun _ => []) := by
  refine ⟨fun numbers => ?_, lateDelta_publishes, fun numbers => ?_⟩
  · obtain ⟨calls, noted, run, repeated⟩ : ∃ calls noted,
        Run (InMemorySessionStore.Notes fun _ _ => True) (InMemorySessionStore.empty, fun _ => [])
          calls noted ∧ (noted.2 "run").map (·.sequence) = [1, 1] :=
      InMemorySessionStore.follow_notes prunedScript (by decide +kernel)
    exact numbers.not_repeated run repeated
  · obtain ⟨noted, run, repeated⟩ : ∃ noted, Run (Cluster.Notes lateDelta fun _ _ => True)
        (lateDelta.start, fun _ => []) prunedSchedule noted ∧
          (noted.2 "run").map (·.sequence) = [1, 1] :=
      Cluster.follow_notes (by decide +kernel)
    exact numbers.not_repeated run repeated

/-- The number that was given out last is still in the log of the run. -/
def LogView.OnLastNumber (view : LogView State) (noted : Noted State) (ref : String) : Prop :=
  ∀ event ∈ (noted.2 ref).getLast?, ∃ other ∈ view.log noted.1 ref,
    other.sequence = event.sequence

instance (view : LogView State) (noted : Noted State) : DecidablePred (view.OnLastNumber noted) :=
  fun ref => inferInstanceAs (Decidable (∀ event ∈ (noted.2 ref).getLast?,
    ∃ other ∈ view.log noted.1 ref, other.sequence = event.sequence))

private theorem Cluster.onLast_of_number {noted : Noted (Cluster Reply)}
    (sound : (chronicleOf noted.1 noted.2).Sound late)
    (numbered : Cluster.logView.OnLastNumber noted ref) : Cluster.logView.OnLast noted ref := by
  intro event last
  obtain ⟨other, stored, same⟩ := numbered event last
  exact (sound.closes ref).sound.stored_numbered (List.mem_of_getLast? last) stored same

private theorem Cluster.notes_onLast {calls : Workload} {noted : Noted (Cluster Reply)}
    (publishes : ∀ process, (calls process).1.Publishes)
    (run : Run (Cluster.Notes calls Cluster.logView.OnLastNumber) (calls.start, fun _ => [])
      actions noted) :
    Run (Cluster.Notes calls Cluster.logView.OnLast) (calls.start, fun _ => []) actions noted := by
  have keeps : KeepsJournals Cluster.logView True
      (Cluster.Notes calls Cluster.logView.OnLastNumber)
      fun noted => Upheld True calls noted.1 noted.2 :=
    service_keeps_logs fun sound last => ⟨.inl trivial, Cluster.onLast_of_number sound last⟩
  induction run with
  | nil => exact .nil
  | @snoc _ before action _ earlier last ih =>
    have holds := earlier.invariant (start_upheld publishes) keeps.preserved
    refine ih.snoc ⟨last.1, ?_⟩
    have permitted := last.2
    cases action with
    | statement process =>
      exact fun counts ref target =>
        Cluster.onLast_of_number holds.sound (permitted counts ref target)
    | createSession | prune => trivial

/-- A delta arrives before the run is cancelled and is pruned; the next one comes after. -/
def prunedDelta : Workload
  | 0 => (.reserveRun (.sample none none "hash"), .sample "lake" "run")
  | 1 => (.appendStreamEvent "run" .responseDelta [], .sample "b" "b")
  | 2 => (.cancelRun "run" "worker", .sample "c" "c")
  | _ => (.appendStreamEvent "run" .responseDelta [], .sample "d" "d")

def keptSchedule : List ServiceAction :=
  [0, 0, 0, 0, 1, 1, 1, 1, 2, 2, 2, 2, 2].map .statement ++
    .prune 1 (fun event => event.createdAt < 1) :: [3, 3, 3, 3].map .statement

private theorem prunedDelta_publishes (process : Nat) : (prunedDelta process).1.Publishes := by
  match process with
  | 0 | 2 => trivial
  | 1 | _ + 3 => rfl

theorem sequences_used_once_prunedDelta :
    (∃ calls noted, Run (InMemorySessionStore.Notes InMemorySessionStore.logView.OnWhole)
      (InMemorySessionStore.empty, fun _ => []) calls noted ∧
        (noted.2 "run").map (·.sequence) = [1, 2] ∧
        (noted.1.eventLog "run").map (·.sequence) = [2] ∧
        (noted.2 "run").Pairwise fun first second => first.sequence < second.sequence) ∧
    ∃ noted, Run (Cluster.Notes prunedDelta Cluster.logView.OnLast)
      (prunedDelta.start, fun _ => []) keptSchedule noted ∧
        (noted.2 "run").map (·.sequence) = [1, 2, 3] ∧
        (noted.1.database.eventLog "run").map (·.sequence) = [2, 3] ∧
        (noted.2 "run").Pairwise fun first second => first.sequence < second.sequence := by
  constructor
  · obtain ⟨calls, noted, run, issued, stored⟩ : ∃ calls noted,
        Run (InMemorySessionStore.Notes InMemorySessionStore.logView.OnWhole)
          (InMemorySessionStore.empty, fun _ => []) calls noted ∧
            (noted.2 "run").map (·.sequence) = [1, 2] ∧
            (noted.1.eventLog "run").map (·.sequence) = [2] :=
      InMemorySessionStore.follow_notes
        (earlyDeltaScript ++ [(.sample "d" "d", .pruneStreamEvents 1)]) (by decide +kernel)
    exact ⟨calls, noted, run, issued, stored,
      (sequences_used_once prunedDelta_publishes).1.increasing run⟩
  · obtain ⟨noted, run, issued, stored⟩ : ∃ noted,
        Run (Cluster.Notes prunedDelta Cluster.logView.OnLastNumber)
          (prunedDelta.start, fun _ => []) keptSchedule noted ∧
            (noted.2 "run").map (·.sequence) = [1, 2, 3] ∧
            (noted.1.database.eventLog "run").map (·.sequence) = [2, 3] :=
      Cluster.follow_notes (by decide +kernel)
    have kept := Cluster.notes_onLast prunedDelta_publishes run
    exact ⟨noted, kept, issued, stored,
      (sequences_used_once prunedDelta_publishes).2.increasing kept⟩

end DayuAgent
