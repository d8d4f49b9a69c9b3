import DayuAgent.Database.Statements
import DayuAgent.Database.StreamLogs

/-! Pruning by age against the order of sequence numbers: `created_at` is the start of the
inserting transaction, the number is drawn under the row lock of the run. -/

namespace DayuAgent

open Library SQLAlchemyRuntimeStore

/-- The server default `now()` gives each row the start of its transaction. -/
def Change.StampedAt (time : Time) : Change → Prop
  | .message added => added.createdAt = time
  | .event appended => appended.createdAt = time
  | .session _ | .run _ | .deleteMessages _ => True

/-- Every call inserts its rows with the time at which its transaction started. -/
def Workload.StampedAt (calls : Workload) (started : Nat → Time) : Prop :=
  ∀ process, ((calls process).1.transaction (calls process).2).Flushes
    (Change.StampedAt (started process))

/-- The database after `prune_stream_events` with each of the cutoffs in turn. -/
def Database.pruned (database : Database) (cutoffs : List Time) : Database :=
  cutoffs.foldl (fun rest before => (pruneStreamEvents before rest).2) database

def ServiceAction.Prunes : ServiceAction → Prop
  | .prune _ _ => True
  | .statement _ | .createSession _ => False

/-- The transaction that an action commits, once for each event it adds to the run. -/
def ServiceAction.appends (ref : String) (before after : Cluster Reply) :
    ServiceAction → List Nat
  | .statement process => List.replicate
      ((after.database.eventLog ref).length - (before.database.eventLog ref).length) process
  | .createSession _ | .prune _ _ => []

def appendNext (ref : String) (noted : Cluster Reply × List Nat) (action : ServiceAction) :
    Cluster Reply × List Nat :=
  match noted.1.serve action with
  | none => noted
  | some after => (after, noted.2 ++ action.appends ref noted.1 after)

/-- The transactions that append events to the run, in the order of its row lock: the row stays
locked until they commit. -/
def appenders (ref : String) (start : Cluster Reply) (actions : List ServiceAction) : List Nat :=
  (actions.foldl (appendNext ref) (start, [])).2

section Appending

variable {calls : Workload} {before after cluster : Cluster Reply} {started : Nat → Time}

private theorem run_appendNext (run : Run Serves start actions cluster) (ref : String) :
    (actions.foldl (appendNext ref) (start, [])).1 = cluster := by
  induction run with
  | nil => rfl
  | snoc earlier last ih =>
    have served : Cluster.serve _ _ = some _ := last
    rw [List.foldl_append, List.foldl_cons, List.foldl_nil, appendNext, ih, served]

private theorem appenders_snoc (run : Run Serves start actions before)
    (last : Serves before action after)
    (ref : String) : appenders ref start (actions ++ [action]) =
      appenders ref start actions ++ action.appends ref before after := by
  have served : before.serve action = some after := last
  rw [appenders, List.foldl_append, List.foldl_cons, List.foldl_nil, appendNext,
    run_appendNext run, served]
  rfl

private theorem published_stamped {changes : List Change}
    (stamped : ∀ change ∈ changes, change.StampedAt time) (ref : String) :
    (changes.flatMap (Change.published ref)).map (·.createdAt) =
      List.replicate (changes.flatMap (Change.published ref)).length time := by
  refine List.eq_replicate_iff.mpr ⟨List.length_map _, fun stamp member => ?_⟩
  obtain ⟨event, published, rfl⟩ := List.mem_map.mp member
  obtain ⟨change, flushed, own⟩ := List.mem_flatMap.mp published
  have time := stamped change flushed
  cases change with
  | event appended =>
    simp only [Change.published, List.mem_ite_nil_right, List.mem_singleton] at own
    exact own.2 ▸ time
  | session | run | message | deleteMessages => simp [Change.published] at own

/-- What is issued is what is stored, since nothing was pruned, and every stored event carries
the start of the transaction that appended it. -/
structure Dated (calls : Workload) (started : Nat → Time) (cluster : Cluster Reply)
    (actions : List ServiceAction) : Prop where
  upheld : Upheld True calls cluster cluster.database.eventLog
  writes : ∀ process, Writes (fun process => Change.StampedAt (started process)) cluster process
  stamps : ∀ ref, (cluster.database.eventLog ref).map (·.createdAt) =
    (appenders ref calls.start actions).map started

private theorem Dated.serves (dated : Dated calls started before actions)
    (run : Run Serves calls.start actions before) (taken : Serves before action after)
    (keeps : ¬ action.Prunes) : Dated calls started after (actions ++ [action]) := by
  have grows : ∀ ref, ∃ added,
      after.database.eventLog ref = before.database.eventLog ref ++ added ∧
        added.map (·.createdAt) = (action.appends ref before after).map started := by
    intro ref
    have idle : after.database.eventLog ref = before.database.eventLog ref →
        action.appends ref before after = [] := by
      intro same
      cases action <;> simp [ServiceAction.appends, same]
    cases action with
    | prune time removed => exact (keeps trivial).elim
    | createSession record =>
      obtain rfl := serve_createSession taken
      exact ⟨[], (List.append_nil _).symm, rfl⟩
    | statement process =>
      cases next_moved taken with
      | proceeds => exact ⟨[], (List.append_nil _).symm, by rw [idle rfl]; rfl⟩
      | rolls => exact ⟨[], (List.append_nil _).symm, by rw [idle rfl]; rfl⟩
      | @commits value active =>
        have log := before.database.applyAll_eventLog (before.processes process).pending ref
        refine ⟨_, log, ?_⟩
        rw [published_stamped (dated.writes process).pending]
        have counted : (before.commit process value).database.eventLog ref = _ := log
        simp only [ServiceAction.appends, counted, List.length_append, Nat.add_sub_cancel_left,
          List.map_replicate]
  refine ⟨?_, fun process => Writes.serves dated.writes taken process, fun ref => ?_⟩
  · have issue : before.recorded after before.database.eventLog = after.database.eventLog := by
      funext ref
      obtain ⟨added, longer, _⟩ := grows ref
      rw [Cluster.recorded, longer, List.drop_left]
    rw [← issue]
    refine dated.upheld.serves taken fun process _ _ => ?_
    cases (calls process).1 with
    | appendStreamEvent => exact ⟨.inl trivial, fun event last => List.mem_of_getLast? last⟩
    | _ => trivial
  · obtain ⟨added, longer, stamps⟩ := grows ref
    rw [longer, appenders_snoc run taken, List.map_append, List.map_append, dated.stamps ref,
      stamps]

theorem run_dated (publishes : ∀ process, (calls process).1.Publishes)
    (stamped : calls.StampedAt started) (run : Run Serves calls.start actions cluster)
    (keeps : ∀ action ∈ actions, ¬ action.Prunes) : Dated calls started cluster actions := by
  induction run with
  | nil =>
    have empty : calls.start.database.eventLog = fun _ => [] := rfl
    exact ⟨empty ▸ start_upheld publishes, start_writes stamped, fun _ => rfl⟩
  | snoc earlier last ih =>
    have dated := ih fun action member => keeps action (List.mem_append_left _ member)
    exact dated.serves earlier last (keeps _ (by simp))

end Appending

section Pruning

variable {database : Database}

theorem pruneStreamEvents_terminal (found : database.row ref = some run) (terminal : run.Terminal)
    (before : Time) : (pruneStreamEvents before database).2.eventLog ref =
      (database.eventLog ref).filter fun event => before ≤ event.createdAt := by
  simp only [pruneStreamEvents, Database.eventLog, Database.without, List.filter_filter]
  apply List.filter_congr
  intro event _
  by_cases own : event.runId = ref
  · simp [own, Database.Expired, found, terminal]
  · simp [own]

private theorem pruneStreamEvents_open
    (active : ∀ run, database.row ref = some run → ¬ run.Terminal)
    (before : Time) :
    (pruneStreamEvents before database).2.eventLog ref = database.eventLog ref := by
  simp only [pruneStreamEvents, Database.eventLog, Database.without, List.filter_filter]
  apply List.filter_congr
  intro event _
  by_cases own : event.runId = ref
  · have kept : ¬ database.Expired before event := by
      rintro ⟨_, run, found, terminal⟩
      exact active run (own ▸ found) terminal
    simp [own, kept]
  · simp [own]

/-- Any prunings leave an end of the log, given that it ascends in age. -/
theorem pruned_suffix (ascending : (∃ run, database.row ref = some run ∧ run.Terminal) →
      (database.eventLog ref).Pairwise fun first second => first.createdAt ≤ second.createdAt)
    (cutoffs : List Time) : (database.pruned cutoffs).eventLog ref <:+ database.eventLog ref := by
  induction cutoffs generalizing database with
  | nil => exact List.suffix_rfl
  | cons before rest ih =>
    have later := @ih (pruneStreamEvents before database).2
    by_cases ended : ∃ run, database.row ref = some run ∧ run.Terminal
    · obtain ⟨run, found, terminal⟩ := ended
      have log := pruneStreamEvents_terminal found terminal before
      have sorted := ascending ⟨run, found, terminal⟩
      rw [log] at later
      exact (later fun _ => sorted.filter _).trans (retained_suffix sorted before)
    · have log := pruneStreamEvents_open
        (fun run found terminal => ended ⟨run, found, terminal⟩) before
      rw [log] at later
      exact later ascending

private theorem pruned_suffix_iff (database : Database) (ref : String) :
    (∀ cutoffs, (database.pruned cutoffs).eventLog ref <:+ database.eventLog ref) ↔
      ((∃ run, database.row ref = some run ∧ run.Terminal) →
        (database.eventLog ref).Pairwise
          fun first second => first.createdAt ≤ second.createdAt) := by
  constructor
  · rintro ends ⟨run, found, terminal⟩
    apply retained_suffix_iff.mp
    intro cutoff
    rw [← pruneStreamEvents_terminal found terminal cutoff]
    exact ends [cutoff]
  · exact pruned_suffix

end Pruning

/-- Pruning keeps the latest events of a run, whatever the cutoffs, exactly while the run is
active or the transactions that appended to it got its row in the order of their start. -/
theorem retention_keeps_suffix_iff {calls : Workload} {started : Nat → Time}
    (publishes : ∀ process, (calls process).1.Publishes) (stamped : calls.StampedAt started)
    (run : Run Serves calls.start actions cluster) (keeps : ∀ action ∈ actions, ¬ action.Prunes)
    (ref : String) :
    ((cluster.database.eventLog ref).Pairwise
      fun first second => first.sequence < second.sequence) ∧
    ((∀ cutoffs,
        (cluster.database.pruned cutoffs).eventLog ref <:+ cluster.database.eventLog ref) ↔
      ((∃ record, cluster.database.row ref = some record ∧ record.Terminal) →
        (appenders ref calls.start actions).Pairwise
          fun first second => started first ≤ started second)) := by
  have dated := run_dated publishes stamped run keeps
  refine ⟨(dated.upheld.sound.closes ref).sound.increasing, ?_⟩
  rw [pruned_suffix_iff, ← List.pairwise_map, dated.stamps ref, List.pairwise_map]

/-- The surroundings of a transaction that started at the given time. -/
def Ambient.since (time : Time) (first second : String) : Ambient :=
  { Ambient.sample first second with utcNow := fun _ => time }

/-- One delta and the cancellation of its run, started at any times. -/
def deltaAndCancel (started : Nat → Time) : Workload
  | 0 => (.reserveRun (.sample none none "hash"), .since (started 0) "lake" "run")
  | 1 => (.appendStreamEvent "run" .responseDelta [], .since (started 1) "b" "b")
  | process => (.cancelRun "run" "worker", .since (started process) "c" "c")

theorem deltaAndCancel_publishes (started : Nat → Time) (process : Nat) :
    (deltaAndCancel started process).1.Publishes := by
  match process with
  | 0 => trivial
  | 1 => rfl
  | _ + 2 => trivial

/-- Calls whose every clock reading is the start of their transaction. -/
theorem Workload.stampedAt_of_now {calls : Workload} {started : Nat → Time}
    (now : ∀ process index, (calls process).2.utcNow index = started process) :
    calls.StampedAt started := by
  intro process
  refine ((calls process).1.transaction_flushes (calls process).2).mono fun change row => ?_
  cases change with
  | message added =>
    obtain ⟨_, _, _, index, own⟩ := row
    exact own.trans (now process index)
  | event appended =>
    obtain ⟨index, own⟩ := row
    exact own.trans (now process index)
  | session | run | deleteMessages => trivial

theorem deltaAndCancel_stamped (started : Nat → Time) :
    (deltaAndCancel started).StampedAt started := by
  refine Workload.stampedAt_of_now fun process _ => ?_
  match process with
  | 0 | 1 | _ + 2 => rfl

theorem earlySchedule_keeps : ∀ action ∈ earlySchedule, ¬ action.Prunes := by
  simp [earlySchedule, ServiceAction.Prunes]

theorem retention_keeps_suffix_iff_inTurn : ∃ cluster,
    Run Serves (deltaAndCancel id).start earlySchedule cluster ∧
      (cluster.database.eventLog "run").map (·.type) = [.responseDelta, .runCancelled] ∧
      ∀ cutoffs,
        (cluster.database.pruned cutoffs).eventLog "run" <:+ cluster.database.eventLog "run" := by
  obtain ⟨cluster, run, log⟩ : ∃ cluster,
      Run Serves (deltaAndCancel id).start earlySchedule cluster ∧
        (cluster.database.eventLog "run").map (·.type) = [.responseDelta, .runCancelled] :=
    follow_reaches (by decide +kernel)
  have exact := retention_keeps_suffix_iff (deltaAndCancel_publishes id)
    (deltaAndCancel_stamped id) run earlySchedule_keeps "run"
  have inTurn : appenders "run" (deltaAndCancel id).start earlySchedule = [1, 2] := by
    decide +kernel
  refine ⟨cluster, run, log, exact.2.mpr fun _ => ?_⟩
  rw [inTurn]
  simp

/-- The cancellation starts at 3 and the delta at 5, but the delta gets the row first. -/
def overtaken : Nat → Time
  | 0 => 0
  | 1 => 5
  | _ => 3

theorem pruning_loses_terminal_event :
    (∀ process, (deltaAndCancel overtaken process).1.Publishes) ∧
    (deltaAndCancel overtaken).StampedAt overtaken ∧
    (∀ action ∈ earlySchedule, ¬ action.Prunes) ∧
    ∃ cluster, Run Serves (deltaAndCancel overtaken).start earlySchedule cluster ∧
      (cluster.database.eventLog "run").map (·.type) = [.responseDelta, .runCancelled] ∧
      ((cluster.database.pruned [4]).eventLog "run").map (·.type) = [.responseDelta] ∧
      ¬ (cluster.database.pruned [4]).eventLog "run" <:+ cluster.database.eventLog "run" := by
  refine ⟨deltaAndCancel_publishes overtaken, deltaAndCancel_stamped overtaken,
    earlySchedule_keeps, ?_⟩
  obtain ⟨cluster, run, log, left⟩ : ∃ cluster,
      Run Serves (deltaAndCancel overtaken).start earlySchedule cluster ∧
        (cluster.database.eventLog "run").map (·.type) = [.responseDelta, .runCancelled] ∧
        ((cluster.database.pruned [4]).eventLog "run").map (·.type) = [.responseDelta] :=
    follow_reaches (by decide +kernel)
  refine ⟨cluster, run, log, left, fun ends => ?_⟩
  have types := ends.map (·.type)
  rw [log, left] at types
  exact absurd types (by decide)

end DayuAgent
