import DayuAgent.Database.Refinement
import DayuAgent.Memory.Lifecycle

namespace DayuAgent

open Library SQLAlchemyRuntimeStore
open InMemorySessionStore (Coherent)

section Rows

variable {calls : Workload} {store : InMemorySessionStore} {before after : Database}
  {history : List SerialEntry}

theorem performs_progress (attained : Attained before store)
    (run : Run (Performs calls) before history after) (found : before.row ref = some row) :
    ∃ later, after.row ref = some later ∧ row.Progresses later := by
  obtain ⟨effects, final, edits, _, reached⟩ := performs_edits attained run
  rw [attained.reflects.row] at found
  obtain ⟨later, present, progresses⟩ := edits_progress edits found
  exact ⟨later, (reached.reflects.row ref).trans present, progresses⟩

/-- The rows of a service at any time are those of a store that edits have led to. -/
theorem service_attained (fresh : calls.Fresh) (run : Run Serves calls.start actions cluster)
    (opens : ∀ action ∈ actions, ∀ sessionId, action.Opens calls sessionId) :
    ∃ store, Attained cluster.database store := by
  obtain ⟨_, serial, _⟩ := (start_serialized calls).run fresh run opens
  obtain ⟨_, store, _, _, attained⟩ := performs_edits empty_attained serial
  exact ⟨store, attained⟩

end Rows

section Settlement

variable {call : LockingCall} {ambient : Ambient} {database after : Database}

/-- What a commit, a failure and a cancellation do at a terminal row. -/
theorem commitRunSuccess_refused (request : CommitRunRequest)
    (found : database.runs.get? ref = some run) (terminal : run.Terminal) :
    (LockingCall.commitRunSuccess ref request).ending ambient database =
      .failed (invalidTransition run.status .completed) := by
  simp only [LockingCall.ending, LockingCall.transaction, commitRunSuccess, Txn.run_bind,
    Ending.andThen_committed (lockedRun_found found),
    validateRunTransition_error (terminal_no_transition terminal _),
    Ending.andThen_failed (Txn.run_raise _ _ _)]
  rfl

theorem failRun_settled_row (errorCode : String) (found : database.runs.get? ref = some run)
    (terminal : run.Terminal) : (LockingCall.failRun ref errorCode).ending ambient database =
      .committed (.run run) database := by
  simp only [LockingCall.ending, LockingCall.transaction, failRun, Txn.run_bind,
    Ending.andThen_committed (lockedRun_found found), if_pos terminal]
  rfl

private theorem cancelRun_settled_row (workerInstanceId : String)
    (found : database.runs.get? ref = some run) (terminal : run.Terminal) :
    (LockingCall.cancelRun ref workerInstanceId).ending ambient database =
      .committed (.cancel { run, disposition :=
        if run.status = .cancelled then .alreadyCancelled else .alreadyTerminal }) database := by
  simp only [LockingCall.ending, LockingCall.transaction, cancelRun, Txn.run_bind,
    Ending.andThen_committed (lockedRun_found found)]
  by_cases cancelled : run.status = .cancelled
  · simp only [if_pos cancelled]
    rfl
  · simp only [if_neg cancelled, if_pos terminal]
    rfl

/-- The loop of a sweep over active runs comes to its end. -/
theorem interruptEach_counts (ambient : Ambient) (runs : List AgentRun)
    (active : ∀ run ∈ runs, run.Active) (database : Database) : ∃ after,
      (do interruptEach ambient 0 runs; return runs.length : Txn Nat).run database database =
        .committed runs.length after := by
  obtain ⟨after, ran⟩ := LockingCall.interruptEach_commits ambient 0 runs active database database
  refine ⟨after, ?_⟩
  rw [Txn.run_bind, Ending.andThen_committed ran]
  rfl

private theorem interruptMatching_counts (workerInstanceId : String) (sameWorker : Bool)
    (ambient : Ambient) (database : Database) : ∃ count after,
      (interruptMatching workerInstanceId sameWorker ambient).run database database =
        .committed count after := by
  obtain ⟨after, ran⟩ := interruptEach_counts ambient
    (database.runs.values.filter fun run => run.Active ∧
      (if sameWorker then run.workerInstanceId = workerInstanceId
        else run.workerInstanceId ≠ workerInstanceId))
    (fun run member => (of_decide_eq_true (List.mem_filter.mp member).2).1) database
  exact ⟨_, after, ran⟩

/-- A sweep counts its runs, and fails on none. -/
theorem sweep_counts (sweeping : call.Sweeping) (ambient : Ambient) (database : Database) :
    ∃ count after, call.ending ambient database = .committed (.count count) after := by
  have looped : ∀ workerInstanceId sameWorker, ∃ count after,
      (interruptMatching workerInstanceId sameWorker ambient >>= fun count =>
        pure (Reply.count count)).run database database = .committed (.count count) after := by
    intro workerInstanceId sameWorker
    obtain ⟨count, after, ran⟩ :=
      interruptMatching_counts workerInstanceId sameWorker ambient database
    refine ⟨count, after, ?_⟩
    rw [Txn.run_bind, Ending.andThen_committed ran]
    rfl
  cases call with
  | interruptWorkerRuns workerInstanceId => exact looped workerInstanceId true
  | reconcileOrphanedRuns workerInstanceId => exact looped workerInstanceId false
  | _ => exact sweeping.elim

/-- A settling call that is alone with a settled run declines. -/
theorem ending_declines (ambient : Ambient) (found : database.row ref = some run)
    (terminal : run.Terminal) (settling : call.operation.Settling ref) :
    (∃ value after, call.ending ambient database = .committed value after ∧
        call.operation.Declines run (.ok value)) ∨
      ∃ error, call.ending ambient database = .failed error ∧
        call.operation.Declines run (.error error) := by
  cases call with
  | commitRunSuccess target request =>
    obtain rfl : target = ref := settling
    exact .inr ⟨_, commitRunSuccess_refused request found terminal, rfl⟩
  | failRun target errorCode =>
    obtain rfl : target = ref := settling
    exact .inl ⟨_, _, failRun_settled_row errorCode found terminal, rfl⟩
  | cancelRun target workerInstanceId =>
    obtain rfl : target = ref := settling
    refine .inl ⟨_, _, cancelRun_settled_row workerInstanceId found terminal, fun _ => rfl,
      fun active => ?_⟩
    exact ((not_active_iff_terminal _).mpr terminal active).elim
  | interruptWorkerRuns workerInstanceId =>
    have sweeping : (LockingCall.interruptWorkerRuns workerInstanceId).Sweeping := trivial
    obtain ⟨count, after, ends⟩ := sweep_counts sweeping ambient database
    exact .inl ⟨_, after, ends, count, rfl⟩
  | reconcileOrphanedRuns workerInstanceId =>
    have sweeping : (LockingCall.reconcileOrphanedRuns workerInstanceId).Sweeping := trivial
    obtain ⟨count, after, ends⟩ := sweep_counts sweeping ambient database
    exact .inl ⟨_, after, ends, count, rfl⟩
  | _ => exact settling.elim

private theorem LockingCall.Outcome.declines (found : database.row ref = some run)
    (terminal : run.Terminal) (settling : call.operation.Settling ref)
    (ends : call.Outcome ambient database (.committed value after)) :
    call.operation.Declines run (.ok value) := by
  generalize same : Ending.committed value after = ending at ends
  cases ends with
  | whole =>
    rcases ending_declines ambient found terminal settling with
      ⟨_, _, whole, declines⟩ | ⟨_, whole, _⟩
    · rw [whole] at same
      cases same
      exact declines
    · rw [whole] at same
      cases same
  | sweep sweeping runs distinct selected =>
    obtain ⟨after, ran⟩ := interruptEach_counts ambient runs
      (fun run member => (selected run member).2.active) database
    rw [Txn.run_bind, Ending.andThen_committed ran] at same
    cases same
    cases call with
    | interruptWorkerRuns | reconcileOrphanedRuns => exact ⟨_, rfl⟩
    | _ => exact sweeping.elim
  | late names =>
    subst names
    exact settling.elim
  | stranded names =>
    subst names
    exact settling.elim

private theorem failed_declines (found : database.row ref = some run) (terminal : run.Terminal)
    (settling : call.operation.Settling ref)
    (failed : call.ending ambient database = .failed error) :
    call.operation.Declines run (.error error) := by
  rcases ending_declines ambient found terminal settling with
    ⟨_, _, ends, _⟩ | ⟨_, ends, declines⟩
  · rw [ends] at failed
    cases failed
  · rw [ends] at failed
    cases failed
    exact declines

end Settlement

section Admission

variable {request : ReserveRunRequest} {ambient : Ambient} {database after : Database}

/-- The run that a reservation answers is in the rows that it leaves. -/
theorem LockingCall.Outcome.reserved (sound : database.Sound)
    (ends : (LockingCall.reserveRun request).Outcome ambient database (.committed value after)) :
    ∃ answer, value = .reservation answer ∧ after.row answer.run.id = some answer.run ∧
      answer.run.idempotencyKey = request.idempotencyKey ∧
      answer.run.requestHash = request.requestHash ∧
      (answer.ownsExecution = true →
        Unbound request database ∧ database.row answer.run.id = none) := by
  generalize same : Ending.committed value after = ending at ends
  cases ends with
  | whole =>
    obtain ⟨answer, rfl, ran⟩ := reserveRun_wrapped same.symm
    rcases reserveRun_commits sound ran with
      ⟨owns, rfl, found, carried, hashed⟩ | ⟨rfl, rfl, unbound, _, free⟩
    · exact ⟨answer, rfl, found, carried, hashed, by simp [owns]⟩
    · refine ⟨_, rfl, Dict.get?_set_self _ _ _, rfl, rfl, fun _ => ⟨unbound, ?_⟩⟩
      cases found : database.row (runModel request ambient).id with
      | none => rfl
      | some other => exact (free _ other found (.inl (sound.runId found).symm)).elim
  | stranded names unnamed replays =>
    cases same
    cases names
    obtain ⟨answer, rfl, ran⟩ := reserveRun_wrapped replays
    rcases reserveRun_commits sound ran with
      ⟨owns, _, found, carried, hashed⟩ | ⟨rfl, written, _, _, free⟩
    · exact ⟨answer, rfl, found, carried, hashed, by simp [owns]⟩
    · have present : database.row (runModel request ambient).id =
          some (runModel request ambient) := by
        rw [written]
        exact Dict.get?_set_self _ _ _
      exact (free _ _ present (.inl rfl)).elim
  | sweep sweeping => exact sweeping.elim
  | late names => cases names

/-- A reservation fails for its session or for its key, never on a constraint of the tables. -/
theorem reservation_fails (sound : database.Sound)
    (failed : (LockingCall.reserveRun request).ending ambient database = .failed error) :
    ∃ details, error = .of .sessionNotFoundError details ∨
      error = .of .sessionBusyError details ∨ error = .of .idempotencyConflictError details := by
  rw [LockingCall.ending, LockingCall.transaction, Txn.run_bind] at failed
  cases ran : (reserveRun request ambient).run database database with
  | committed | violated =>
    rw [ran] at failed
    cases failed
  | failed raised =>
    rw [ran] at failed
    obtain rfl := Ending.failed.inj failed
    rcases reserveRun_fails sound ran with rfl | ⟨active, _, rfl⟩ | ⟨run, _, _, _, rfl⟩
    · exact ⟨_, .inl rfl⟩
    · exact ⟨_, .inr (.inl rfl)⟩
    · exact ⟨_, .inr (.inr rfl)⟩

end Admission

section Service

variable {calls : Workload} {actions later : List ServiceAction} {middle cluster : Cluster Reply}

/-- A run only follows the table of transitions whatever goes on, and once it is terminal its
row stays and every call that begins later and would settle it declines. -/
theorem settled_rows_final (fresh : calls.Fresh) (first : Run Serves calls.start actions middle)
    (second : Run Serves middle later cluster)
    (opens : ∀ action ∈ actions ++ later, ∀ sessionId, action.Opens calls sessionId)
    (found : middle.database.row ref = some run) :
    (∃ last, cluster.database.row ref = some last ∧ run.Progresses last) ∧
      (run.Terminal → ∀ process, BeginsAfter actions process →
        (calls process).1.operation.Settling ref →
        ∀ result, (cluster.processes process).activity = .finished result →
          (calls process).1.operation.Declines run result) := by
  have early := fun action member => opens action (List.mem_append_left later member)
  obtain ⟨_, _, _, serialized⟩ := (start_serialized calls).run fresh first early
  obtain ⟨store, attained⟩ := service_attained fresh first early
  obtain ⟨history, has⟩ := serialized.hasHistory
    (fun process => run_unstarted fresh first early) fresh second
    fun action member => opens action (List.mem_append_right actions member)
  refine ⟨performs_progress attained has.serial found, ?_⟩
  intro terminal process begins settling result done
  have stays : ∀ {entries past}, Run (Performs calls) middle.database entries past →
      past.row ref = some run := by
    intro entries past passed
    obtain ⟨last, present, progresses⟩ := performs_progress attained passed found
    rwa [progresses.final terminal] at present
  cases result with
  | error error =>
    obtain ⟨past, ⟨_, _, _, passed, _⟩, failed⟩ := has.failed process error begins done
    exact failed_declines (stays passed) terminal settling failed
  | ok value =>
    rcases has.succeeded process value begins done with
      member | ⟨past, ⟨_, _, _, passed, _⟩, ends⟩
    · obtain ⟨earlier, rest, rfl⟩ := List.append_of_mem member
      obtain ⟨past, _, passed, performs, _⟩ := has.serial.around
      cases performs with
      | call _ ends => exact ends.declines (stays passed) terminal settling
    · exact ends.declines (stays passed) terminal settling

/-- A run that is cancelled before its commit begins. -/
def cancelledTurn : Workload
  | 0 => (.reserveRun (.sample none none "hash"), .sample "lake" "run")
  | 1 => (.cancelRun "run" "worker", .sample "b" "b")
  | _ => (.commitRunSuccess "run" .sample, .sample "c" "c")

private theorem cancelledTurn_fresh : cancelledTurn.Fresh := by
  refine fresh_of_one 0 fun process => ?_
  match process with
  | 0 => exact .inl rfl
  | 1 | _ + 2 =>
    right
    simp [cancelledTurn]

theorem settled_rows_final_cancelledTurn : ∃ middle cluster run,
    Run Serves cancelledTurn.start ([0, 0, 0, 0, 1, 1, 1, 1, 1].map .statement) middle ∧
    Run Serves middle ([2, 2].map .statement) cluster ∧
    middle.database.row "run" = some run ∧ run.status = .cancelled ∧
    (∃ last, cluster.database.row "run" = some last ∧ run.Progresses last) ∧
    ∀ result, (cluster.processes 2).activity = .finished result →
      result = .error (invalidTransition .cancelled .completed) := by
  obtain ⟨cluster, run, _⟩ : ∃ cluster, Run Serves cancelledTurn.start
      ([0, 0, 0, 0, 1, 1, 1, 1, 1, 2, 2].map .statement) cluster ∧
        cluster.locks (.run "run") = none := follow_reaches (by decide +kernel)
  obtain ⟨middle, first, second⟩ := Run.split (show Run Serves cancelledTurn.start
    ([0, 0, 0, 0, 1, 1, 1, 1, 1].map .statement ++ [2, 2].map .statement) cluster from run)
  obtain ⟨reached, again, cancelled⟩ : ∃ reached, Run Serves cancelledTurn.start
      ([0, 0, 0, 0, 1, 1, 1, 1, 1].map .statement) reached ∧
        (reached.database.row "run").map (·.status) = some .cancelled :=
    follow_reaches (by decide +kernel)
  obtain rfl := first.deterministic again
  obtain ⟨row, found, status⟩ := Option.map_eq_some_iff.mp cancelled
  have final := settled_rows_final cancelledTurn_fresh first second
    (by simp [ServiceAction.Opens]) found
  refine ⟨middle, cluster, row, first, second, found, status, final.1, fun result done => ?_⟩
  have terminal : row.Terminal := by simp [AgentRun.Terminal, status, terminalRunStatuses]
  have declines := final.2 terminal 2 (by simp [BeginsAfter]) rfl result done
  rw [← status]
  exact declines

/-- What reservations have brought about in a service. -/
structure AdmittedRuns (calls : Workload) (cluster : Cluster Reply) : Prop where
  sound : cluster.database.Sound
  answered : (calls process).1 = .reserveRun request →
    (cluster.processes process).activity = .finished (.ok (.reservation answer)) →
    ∃ row, cluster.database.row answer.run.id = some row ∧ answer.run.Progresses row ∧
      row.idempotencyKey = request.idempotencyKey ∧ row.requestHash = request.requestHash
  owner : (calls one).1 = .reserveRun request → (calls two).1 = .reserveRun again →
    request.idempotencyKey = some key → again.idempotencyKey = some key →
    (cluster.processes one).activity = .finished (.ok (.reservation first)) →
    (cluster.processes two).activity = .finished (.ok (.reservation second)) →
    first.ownsExecution = true → second.ownsExecution = true → one = two
  failed : (calls process).1 = .reserveRun request →
    (cluster.processes process).activity = .finished (.error error) →
    ∃ details, error = .of .sessionNotFoundError details ∨
      error = .of .sessionBusyError details ∨ error = .of .idempotencyConflictError details

/-- The rows that a reservation has found and left on its way. -/
theorem HasHistory.reserved {history : List SerialEntry}
    (has : HasHistory calls (fun _ => True) calls.start cluster history)
    (names : (calls process).1 = .reserveRun request)
    (done : (cluster.processes process).activity = .finished (.ok (.reservation answer))) :
    ∃ past next earlier through rest, Run (Performs calls) .empty earlier past ∧
      Run (Performs calls) .empty through next ∧
      Run (Performs calls) next rest cluster.database ∧
      (LockingCall.reserveRun request).Outcome (calls process).2 past
        (.committed (.reservation answer) next) ∧
      (.call process (.reservation answer) ∈ history ∨ past = next) := by
  rcases has.succeeded process _ trivial done with
    member | ⟨past, ⟨earlier, rest, _, before, after⟩, ends⟩
  · obtain ⟨earlier, rest, rfl⟩ := List.append_of_mem member
    obtain ⟨past, next, before, performs, after⟩ := has.serial.around
    cases performs with
    | call undrawn ends =>
      exact ⟨past, next, earlier, _, rest, before, before.snoc (.call undrawn ends), after,
        names ▸ ends, .inl member⟩
  · exact ⟨past, past, earlier, earlier, rest, before, before, after, names ▸ ends, .inr rfl⟩

theorem attained_performs {history : List SerialEntry} {database : Database}
    (run : Run (Performs calls) .empty history database) :
    ∃ store, Attained database store := by
  obtain ⟨_, store, _, _, attained⟩ := performs_edits empty_attained run
  exact ⟨store, attained⟩

/-- An owner has an entry of its own. -/
theorem HasHistory.owned {history : List SerialEntry}
    (has : HasHistory calls (fun _ => True) calls.start cluster history)
    (names : (calls process).1 = .reserveRun request)
    (done : (cluster.processes process).activity = .finished (.ok (.reservation answer)))
    (owns : answer.ownsExecution = true) : .call process (.reservation answer) ∈ history := by
  obtain ⟨past, next, _, _, _, before, _, _, ends, member | rfl⟩ := has.reserved names done
  · exact member
  · obtain ⟨_, attained⟩ := attained_performs before
    obtain ⟨_, same, found, _, _, new⟩ := ends.reserved attained.reached.sound
    cases same
    rw [(new owns).2] at found
    contradiction

/-- Two owners of one key have no order. -/
theorem owners_unordered {earlier between rest : List SerialEntry} {database : Database}
    (run : Run (Performs calls) .empty
      (earlier ++ .call one (.reservation first) :: (between ++ .call two (.reservation second) ::
        rest)) database)
    (names : (calls one).1 = .reserveRun request) (also : (calls two).1 = .reserveRun again)
    (keyed : request.idempotencyKey = some key) (same : again.idempotencyKey = some key)
    (owns : second.ownsExecution = true) : False := by
  obtain ⟨past, next, before, performs, after⟩ := run.around
  obtain ⟨store, attained⟩ := attained_performs before
  obtain ⟨_, left⟩ := attained_performs (before.snoc performs)
  obtain ⟨middle, _, passed, last, _⟩ := after.around
  obtain ⟨_, there⟩ := attained_performs ((before.snoc performs).append passed)
  cases performs with
  | call _ ends =>
    rw [names] at ends
    obtain ⟨answer, equal, found, carried, _⟩ := ends.reserved attained.reached.sound
    cases equal
    obtain ⟨row, present, progresses⟩ := performs_progress left passed found
    cases last with
    | call _ ends =>
      rw [also] at ends
      obtain ⟨answer, equal, _, _, _, new⟩ := ends.reserved there.reached.sound
      cases equal
      exact find_byKey_none ((new owns).1 key same) present
        (progresses.key.trans (carried.trans keyed))

/-- Whatever the calls of a service do in between, each session has one active run and each key
one run and one owner, every reservation answers a run of its key and hash, and none fails on a
constraint of the tables. -/
theorem service_admits (fresh : calls.Fresh) (run : Run Serves calls.start actions cluster)
    (opens : ∀ action ∈ actions, ∀ sessionId, action.Opens calls sessionId) :
    AdmittedRuns calls cluster := by
  obtain ⟨history, has⟩ := (start_serialized calls).hasHistory
    (fun process _ => start_unstarted calls process) fresh run opens
  refine ⟨?_, fun names done => ?_, ?_, fun names done => ?_⟩
  · obtain ⟨_, attained⟩ := service_attained fresh run opens
    exact attained.reached.sound
  · obtain ⟨past, next, _, _, rest, before, through, after, ends, _⟩ := has.reserved names done
    obtain ⟨_, attained⟩ := attained_performs before
    obtain ⟨_, left⟩ := attained_performs through
    obtain ⟨answer, same, found, carried, hashed, _⟩ := ends.reserved attained.reached.sound
    cases same
    obtain ⟨row, present, progresses⟩ := performs_progress left after found
    exact ⟨row, present, progresses, progresses.key.trans carried, progresses.hash.trans hashed⟩
  · intro one request two again key first second names also keyed same done ended owns shares
    by_contra different
    have firstly := has.owned names done owns
    have secondly := has.owned also ended shares
    obtain ⟨earlier, rest, rfl⟩ := List.append_of_mem firstly
    rcases List.mem_append.mp secondly with sooner | later
    · obtain ⟨front, between, rfl⟩ := List.append_of_mem sooner
      have serial := has.serial
      rw [List.append_assoc, List.cons_append] at serial
      exact owners_unordered serial also names same keyed owns
    · rcases List.mem_cons.mp later with equal | later
      · cases equal
        exact different rfl
      · obtain ⟨between, rest, rfl⟩ := List.append_of_mem later
        exact owners_unordered has.serial names also keyed same shares
  · obtain ⟨past, ⟨_, _, _, before, _⟩, failed⟩ := has.failed _ _ trivial done
    obtain ⟨_, attained⟩ := attained_performs before
    rw [names] at failed
    exact reservation_fails attained.reached.sound failed

theorem service_admits_contenders : ∃ cluster,
    Run Serves contenders.start ([1, 0, 0, 0, 0, 0, 0, 1, 1, 1].map .statement) cluster ∧
    cluster.database.sessions.values.length = 2 ∧ AdmittedRuns contenders cluster := by
  obtain ⟨cluster, run, stranded⟩ : ∃ cluster,
      Run Serves contenders.start ([1, 0, 0, 0, 0, 0, 0, 1, 1, 1].map .statement) cluster ∧
        cluster.database.sessions.values.length = 2 := follow_reaches (by decide +kernel)
  exact ⟨cluster, run, stranded, service_admits contenders_fresh run (by
    simp [ServiceAction.Opens])⟩

end Service

end DayuAgent
