import DayuAgent.Database.Refinement

namespace DayuAgent

open Library SQLAlchemyRuntimeStore
open InMemorySessionStore (Turn Kept Ledger edits_coherent edits_ledger empty_coherent)

/-- The entry is a commit of the run. -/
def SerialEntry.Commits (calls : Workload) (ref : String) : SerialEntry → Prop
  | call process _ => ∃ request, (calls process).1 = .commitRunSuccess ref request
  | opened _ | pruned _ _ => False

/-- The entry empties the transcript of the session. -/
def SerialEntry.Clears (calls : Workload) (sessionId : String) : SerialEntry → Prop
  | call process _ => (calls process).1 = .clearSession sessionId
  | opened _ | pruned _ _ => False

/-- The contract of one transcript after a history. -/
structure TranscriptOf (calls : Workload) (history : List SerialEntry) (database : Database)
    (sessionId : String) : Prop where
  numbered : (database.transcript sessionId).map (·.sequence) =
    List.range' 1 (database.transcript sessionId).length
  bound : message ∈ database.transcript sessionId → message.runId = some ref →
    ∃ run, database.row ref = some run ∧ run.status = .completed ∧ run.sessionId = sessionId
  turns : database.row ref = some run → run.status = .completed → run.sessionId = sessionId →
    ∃ before process request value later, history = before ++ .call process value :: later ∧
      (calls process).1 = .commitRunSuccess ref request ∧
      (∀ entry ∈ before ++ later, ¬ entry.Commits calls ref) ∧
      ((∃ entry ∈ later, entry.Clears calls sessionId) →
        ∀ message ∈ database.transcript sessionId, message.runId ≠ some ref) ∧
      ((¬ ∃ entry ∈ later, entry.Clears calls sessionId) →
        Turn (database.transcript sessionId) ref request)

section Entries

variable {calls : Workload} {history : List SerialEntry} {effects : List Effect}
  {entry : SerialEntry}

private theorem operation_commit {call : LockingCall}
    (same : call.operation = .commitRunSuccess ref request) :
    call = .commitRunSuccess ref request := by
  cases call <;> cases same
  rfl

private theorem operation_clear {call : LockingCall}
    (same : call.operation = .clearSession sessionId) :
    call = .clearSession sessionId := by
  cases call <;> cases same
  rfl

/-- Only a commit of the run conveys its pair, and nothing else. -/
theorem conveys_committed (conveys : Conveys calls entry effects)
    (member : .committed ref request ∈ effects) : effects = [.committed ref request] ∧
      ∃ process value, entry = .call process value ∧
        (calls process).1 = .commitRunSuccess ref request := by
  cases conveys with
  | @call process value _ answered =>
    cases answered with
    | made makes =>
      obtain ⟨same, _, alone⟩ := (InMemorySessionStore.makes_committed makes).mp member
      exact ⟨alone, process, value, rfl, operation_commit same⟩
    | appended => cases member
    | stranded => cases List.mem_singleton.mp member
  | opened => cases List.mem_singleton.mp member
  | pruned => cases member

private theorem conveys_commits (commits : entry.Commits calls ref) :
    ∃ request, ∀ more, Conveys calls entry more → .committed ref request ∈ more := by
  cases entry with
  | opened | pruned => exact commits.elim
  | call process value =>
    obtain ⟨request, names⟩ := commits
    refine ⟨request, fun more conveys => ?_⟩
    cases conveys with
    | call answered =>
      rw [names] at answered
      cases answered with
      | made makes =>
        cases makes with
        | committed => exact List.mem_singleton_self _
        | read reads => exact reads.elim
      | appended other | stranded other => cases other

private theorem conveys_cleared (conveys : Conveys calls entry effects) :
    .cleared sessionId ∈ effects ↔ entry.Clears calls sessionId := by
  cases conveys with
  | @call process value _ answered =>
    constructor
    · intro member
      cases answered with
      | made makes => exact operation_clear (makes.origin member)
      | appended => cases member
      | stranded => cases List.mem_singleton.mp member
    · intro names
      rw [show (calls process).1 = _ from names] at answered
      cases answered with
      | made makes =>
        cases makes with
        | cleared => exact List.mem_singleton_self _
        | read reads => exact reads.elim
      | appended other | stranded other => cases other
  | opened =>
    constructor
    · intro member
      cases List.mem_singleton.mp member
    · exact False.elim
  | pruned =>
    constructor
    · intro member
      cases member
    · exact False.elim

private theorem produces_cleared (produces : Produces (Conveys calls) history effects) :
    .cleared sessionId ∈ effects ↔ ∃ entry ∈ history, entry.Clears calls sessionId := by
  induction produces with
  | nil => simp
  | snoc earlier last ih =>
    simp only [List.mem_append, ih, conveys_cleared last, or_and_right, exists_or,
      List.mem_singleton, exists_eq_left]

/-- The entry behind the pair of a completed run, with the entries on both sides. -/
theorem produces_commit
    (produces : Produces (Conveys calls) history (earlier ++ .committed ref request :: later)) :
    ∃ before process value after, history = before ++ .call process value :: after ∧
      (calls process).1 = .commitRunSuccess ref request ∧
      Produces (Conveys calls) before earlier ∧ Produces (Conveys calls) after later := by
  obtain ⟨before, entry, after, front, back, first, second, rfl, conveys, past, next, rfl, rfl⟩ :=
    produces.origin
  have member : .committed ref request ∈ front ++ .committed ref request :: back :=
    List.mem_append_right _ List.mem_cons_self
  obtain ⟨alone, process, value, rfl, names⟩ := conveys_committed conveys member
  have lengths := congrArg List.length alone
  simp only [List.length_append, List.length_cons, List.length_nil] at lengths
  obtain rfl : front = [] := List.eq_nil_of_length_eq_zero (by omega)
  obtain rfl : back = [] := List.eq_nil_of_length_eq_zero (by omega)
  refine ⟨before, process, value, after, rfl, names, ?_, next⟩
  rwa [List.append_nil]

/-- Rows that a history of edits has led to keep the contract of every transcript. -/
theorem transcript_kept {store : InMemorySessionStore} {database : Database}
    (edits : Run Edit .empty effects store) (produces : Produces (Conveys calls) history effects)
    (reflects : Reflects store database) (sessionId : String) :
    TranscriptOf calls history database sessionId := by
  have ledger := edits_ledger edits
  have coherent := edits_coherent edits empty_coherent
  have rows := reflects.transcripts sessionId
  refine ⟨?_, fun member bound => ?_, fun found completed own => ?_⟩
  · rw [rows]
    cases read : store.messages.get? sessionId with
    | none => rfl
    | some transcript => exact ledger.numbered read
  · rw [rows] at member
    cases read : store.messages.get? sessionId with
    | none =>
      rw [read] at member
      cases member
    | some transcript =>
      rw [read] at member
      obtain ⟨run, found, completed⟩ := ledger.bound read member bound
      exact ⟨run, (reflects.row _).trans found, completed⟩
  · rw [reflects.row] at found
    subst own
    obtain ⟨record, opened⟩ := Option.isSome_iff_exists.mp (coherent.runSession found)
    obtain ⟨transcript, read⟩ := coherent.transcriptOf opened
    rw [rows, read, Option.getD_some]
    obtain ⟨earlier, request, later, rfl, once, kept⟩ :=
      ledger.turns ⟨_, found, completed, rfl⟩ read
    obtain ⟨before, process, value, after, rfl, names, past, next⟩ := produces_commit produces
    refine ⟨before, process, request, value, after, rfl, names, fun entry member commits => ?_,
      fun clears => kept.1 ((produces_cleared next).mpr clears),
      fun kept' => kept.2 (mt (produces_cleared next).mp kept')⟩
    obtain ⟨other, certain⟩ := conveys_commits commits
    rcases List.mem_append.mp member with old | new
    · exact once other (List.mem_append_left _ (past.made old certain))
    · exact once other (List.mem_append_right _ (next.made new certain))

end Entries

/-- Whatever the statements of the calls do in between, transcripts are numbered, hold messages
of completed runs only, and hold the pair of each completed run from its commit to the next
clear of its session. -/
theorem service_transcripts {calls : Workload} {actions : List ServiceAction}
    (fresh : calls.Fresh) (run : Run Serves calls.start actions cluster)
    (opens : ∀ action ∈ actions, ∀ sessionId, action.Opens calls sessionId) :
    ∃ history, HasHistory calls (fun _ => True) calls.start cluster history ∧
      ∀ sessionId, TranscriptOf calls history cluster.database sessionId := by
  obtain ⟨history, has⟩ := (start_serialized calls).hasHistory
    (fun process _ => start_unstarted calls process) fresh run opens
  obtain ⟨effects, store, edits, produces, attained⟩ := performs_edits empty_attained has.serial
  exact ⟨history, has, transcript_kept edits produces attained.reflects⟩

/-- A turn whose session is to be cleared while it runs. -/
def clearedTurn : Workload
  | 0 => (.reserveRun (.sample none none "hash"), .sample "lake" "run")
  | 1 => (.markRunRunning "run" "worker", .sample "b" "b")
  | 2 => (.commitRunSuccess "run" .sample, .sample "c" "c")
  | _ => (.clearSession "lake", .sample "d" "d")

private theorem clearedTurn_fresh : clearedTurn.Fresh := by
  refine fresh_of_one 0 fun process => ?_
  match process with
  | 0 => exact .inl rfl
  | 1 | 2 | _ + 3 =>
    right
    simp [clearedTurn]

/-- The clear comes while the commit has locked the run. -/
theorem service_transcripts_clearedTurn : ∃ cluster history,
    Run Serves clearedTurn.start
      ([0, 0, 0, 0, 1, 1, 1, 1, 1, 2, 3, 3, 3, 2, 2, 2, 2, 2, 2, 2, 2, 2].map .statement) cluster ∧
    (cluster.database.transcript "lake").length = 2 ∧
    HasHistory clearedTurn (fun _ => True) clearedTurn.start cluster history ∧
    ∀ sessionId, TranscriptOf clearedTurn history cluster.database sessionId := by
  obtain ⟨cluster, run, told⟩ : ∃ cluster, Run Serves clearedTurn.start
      ([0, 0, 0, 0, 1, 1, 1, 1, 1, 2, 3, 3, 3, 2, 2, 2, 2, 2, 2, 2, 2, 2].map .statement)
      cluster ∧ (cluster.database.transcript "lake").length = 2 :=
    follow_reaches (by decide +kernel)
  obtain ⟨history, kept⟩ := service_transcripts clearedTurn_fresh run (by
    simp [ServiceAction.Opens])
  exact ⟨cluster, history, run, told, kept⟩

end DayuAgent
