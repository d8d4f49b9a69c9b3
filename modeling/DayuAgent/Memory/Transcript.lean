import DayuAgent.Memory.Reachable

namespace DayuAgent

open Library

/-- The call was a successful commit of the run. -/
def Call.Commits (call : Call) (ref : String) : Prop :=
  ∃ request run, call.operation = .commitRunSuccess ref request ∧ call.reply = .ok (.run run)

/-- The call emptied the transcript of the session. -/
def Call.Clears (call : Call) (sessionId : String) : Prop :=
  call.operation = .clearSession sessionId ∧ call.reply = .ok .unit

namespace InMemorySessionStore

def CompletedIn (store : InMemorySessionStore) (ref sessionId : String) : Prop :=
  ∃ run, store.runs.get? ref = some run ∧ run.status = .completed ∧ run.sessionId = sessionId

/-- A transcript has the two messages of one run next to each other, with the
contents of its commit request, and no other message of that run. -/
def Turn (transcript : List AgentMessage) (ref : String) (request : CommitRunRequest) : Prop :=
  ∃ earlier user assistant later, transcript = earlier ++ user :: assistant :: later ∧
    (user.runId = some ref ∧ user.role = .user ∧ user.content = request.userContent) ∧
    (assistant.runId = some ref ∧ assistant.role = .assistant ∧
      assistant.content = request.assistantContent) ∧
    ∀ message ∈ earlier ++ later, message.runId ≠ some ref

def Numbered (transcript : List AgentMessage) : Prop :=
  transcript.map (·.sequence) = List.range' 1 transcript.length

variable {store after : InMemorySessionStore}

private theorem completedIn_congr (same : after.runs = store.runs) (ref sessionId : String) :
    after.CompletedIn ref sessionId ↔ store.CompletedIn ref sessionId := by
  simp only [CompletedIn, same]

/-- Writing a run that is not completed where none was completed. -/
theorem completedIn_set (updated : AgentRun) (open' : updated.status ≠ .completed)
    (before : ∀ run, store.runs.get? own = some run → run.status ≠ .completed)
    (same : after.runs = store.runs.set own updated) (ref sessionId : String) :
    after.CompletedIn ref sessionId ↔ store.CompletedIn ref sessionId := by
  simp only [CompletedIn, same, Dict.get?_set]
  by_cases chosen : ref = own
  · subst chosen
    simp only [↓reduceIte, Option.some.injEq]
    constructor
    · rintro ⟨run, rfl, completed, _⟩
      exact (open' completed).elim
    · rintro ⟨run, found, completed, _⟩
      exact (before run found completed).elim
  · simp [chosen]

theorem not_completed_of_active {run : AgentRun} (active : run.Active) :
    run.status ≠ .completed := by
  intro completed
  simp [AgentRun.Active, completed, activeRunStatuses] at active

end InMemorySessionStore

private theorem Move.not_completed (move : Move run updated type payload) :
    updated.status ≠ .completed := by
  cases move <;> simp

open InMemorySessionStore

/-- Only a commit completes a run. -/
theorem Edit.completedIn_iff (edit : Edit store effect after)
    (other : ∀ ref request, effect ≠ .committed ref request) (ref sessionId : String) :
    after.CompletedIn ref sessionId ↔ store.CompletedIn ref sessionId := by
  cases edit with
  | ready | openSession | say | clear | emit | prune => exact completedIn_congr rfl _ _
  | reserve request own ambient found absent =>
    refine completedIn_set (pendingRun request own ambient) (by simp [pendingRun]) ?_ rfl _ _
    intro run present
    have missing : store.runs.get? (pendingRun request own ambient).id = none := absent
    rw [missing] at present
    contradiction
  | @attempt run found active =>
    have open' := not_completed_of_active active
    refine completedIn_set { run with attemptCount := run.attemptCount + 1 } open' ?_ rfl _ _
    intro other present
    rw [found] at present
    cases present
    exact open'
  | @move run log updated type payload found read change =>
    refine completedIn_set updated change.not_completed ?_ rfl _ _
    intro other present
    rw [found] at present
    cases present
    exact not_completed_of_active change.active
  | commit => exact (other _ _ rfl).elim

namespace InMemorySessionStore

theorem Numbered.append_one (numbered : Numbered transcript)
    (next : message.sequence = transcript.length + 1) : Numbered (transcript ++ [message]) := by
  simp only [Numbered, List.map_append, List.map_cons, List.map_nil, List.length_append,
    List.length_cons, List.length_nil, List.range'_1_concat] at numbered ⊢
  rw [numbered, next, Nat.add_comm]

theorem Numbered.append_turn (numbered : Numbered transcript) (run : AgentRun)
    (request : CommitRunRequest) (ambient : Ambient) :
    Numbered (transcript ++ turnMessages run request (transcript.length + 1) ambient) := by
  rw [turnMessages, List.append_cons]
  refine (numbered.append_one ?_).append_one ?_
  · rfl
  · simp

/-- Messages of other runs may follow a turn. -/
theorem Turn.append (turn : Turn transcript ref request)
    (foreign : ∀ message ∈ more, message.runId ≠ some ref) :
    Turn (transcript ++ more) ref request := by
  obtain ⟨earlier, user, assistant, later, rfl, first, second, others⟩ := turn
  refine ⟨earlier, user, assistant, later ++ more, by simp, first, second, ?_⟩
  intro message member
  rw [← List.append_assoc, List.mem_append] at member
  exact member.elim (others message) (foreign message)

/-- A commit writes the turn of its run behind messages of other runs. -/
theorem Turn.ofCommit (run : AgentRun) (request : CommitRunRequest) (sequence : Nat)
    (ambient : Ambient) (foreign : ∀ message ∈ transcript, message.runId ≠ some run.id) :
    Turn (transcript ++ turnMessages run request sequence ambient) run.id request :=
  ⟨transcript, _, _, [], rfl, ⟨rfl, rfl, rfl⟩, ⟨rfl, rfl, rfl⟩, by simpa using foreign⟩

theorem turnMessages_runId {sequence : Nat}
    (member : message ∈ turnMessages run request sequence ambient) :
    message.runId = some run.id := by
  simp only [turnMessages, List.mem_cons, List.not_mem_nil, or_false] at member
  rcases member with rfl | rfl <;> rfl

/-- The fate of a completed run's pair after its commit. -/
def Kept (later : List Effect) (sessionId : String) (transcript : List AgentMessage)
    (ref : String) (request : CommitRunRequest) : Prop :=
  (.cleared sessionId ∈ later → ∀ message ∈ transcript, message.runId ≠ some ref) ∧
    (.cleared sessionId ∉ later → Turn transcript ref request)

/-- Transcripts as the effects of a history determine them. -/
structure Ledger (effects : List Effect) (store : InMemorySessionStore) : Prop where
  numbered : store.messages.get? sessionId = some transcript → Numbered transcript
  bound : store.messages.get? sessionId = some transcript → message ∈ transcript →
    message.runId = some ref → store.CompletedIn ref sessionId
  credited : .committed ref request ∈ effects → ∃ sessionId, store.CompletedIn ref sessionId
  turns : store.CompletedIn ref sessionId → store.messages.get? sessionId = some transcript →
    ∃ earlier request later, effects = earlier ++ .committed ref request :: later ∧
      (∀ other, .committed ref other ∉ earlier ++ later) ∧
      Kept later sessionId transcript ref request

theorem Ledger.empty : Ledger [] InMemorySessionStore.empty where
  numbered found := by simp [InMemorySessionStore.empty] at found
  bound found := by simp [InMemorySessionStore.empty] at found
  credited member := by simp at member
  turns completed := by
    obtain ⟨run, found, _⟩ := completed
    simp [InMemorySessionStore.empty] at found

/-- What an edit other than a commit makes of the transcript of one session. -/
inductive Rewrites (store : InMemorySessionStore) (effect : Effect) (sessionId : String) :
    List AgentMessage → Prop where
  | kept (read : store.messages.get? sessionId = some transcript)
      (other : effect ≠ .cleared sessionId) : Rewrites store effect sessionId transcript
  | grown (read : store.messages.get? sessionId = some transcript)
      (other : effect ≠ .cleared sessionId) (unbound : message.runId = none)
      (next : message.sequence = transcript.length + 1) :
      Rewrites store effect sessionId (transcript ++ [message])
  | cleared (read : store.messages.get? sessionId = some transcript)
      (own : effect = .cleared sessionId) : Rewrites store effect sessionId []
  | opened (vacant : ∀ ref, ¬ store.CompletedIn ref sessionId) :
      Rewrites store effect sessionId []

/-- A session that does not exist has no completed run. -/
theorem Coherent.vacant {sessionId : String} (coherent : Coherent store)
    (absent : store.sessions.get? sessionId = none) (ref : String) :
    ¬ store.CompletedIn ref sessionId := by
  rintro ⟨run, found, _, rfl⟩
  have opened := coherent.runSession found
  rw [absent] at opened
  simp at opened

theorem rewrites_of_edit (edit : Edit store effect after) (coherent : Coherent store)
    (other : ∀ ref request, effect ≠ .committed ref request)
    (read : after.messages.get? sessionId = some transcript) :
    Rewrites store effect sessionId transcript := by
  cases edit with
  | ready | attempt | emit | move | prune | reserve => exact .kept read (by simp)
  | commit => exact (other _ _ rfl).elim
  | openSession record absent =>
    simp only [withSession, Dict.get?_set] at read
    split at read
    · subst sessionId
      cases read
      exact .opened (coherent.vacant absent)
    · exact .kept read (by simp)
  | @say record history message found before idle unbound next now =>
    simp only [withTranscript, Dict.get?_set] at read
    split at read
    · subst sessionId
      cases read
      exact .grown before (by simp) unbound next
    · exact .kept read (by simp)
  | @clear record found idle now =>
    simp only [withTranscript, Dict.get?_set] at read
    split at read
    · subst sessionId
      cases read
      obtain ⟨history, before⟩ := coherent.transcriptOf found
      exact .cleared before rfl
    · next different => exact .kept read (by simpa using Ne.symm different)

/-- A pair keeps its fate under an edit that neither clears nor commits. -/
theorem Kept.snoc (kept : Kept later sessionId transcript ref request)
    (other : effect ≠ .cleared sessionId) (foreign : ∀ message ∈ more, message.runId ≠ some ref) :
    Kept (later ++ [effect]) sessionId (transcript ++ more) ref request := by
  have same : .cleared sessionId ∈ later ++ [effect] ↔ .cleared sessionId ∈ later := by
    simp [other.symm]
  constructor
  · intro cleared message member
    rcases List.mem_append.mp member with old | new
    · exact kept.1 (same.mp cleared) message old
    · exact foreign message new
  · intro uncleared
    exact (kept.2 (mt same.mpr uncleared)).append foreign

private theorem Kept.cleared (later : List Effect) (sessionId ref : String)
    (request : CommitRunRequest) :
    Kept (later ++ [.cleared sessionId]) sessionId [] ref request :=
  ⟨fun _ _ member => by simp at member, fun uncleared => by simp at uncleared⟩

private theorem Rewrites.numbered (rewrites : Rewrites store effect sessionId transcript)
    (ledger : Ledger effects store) : Numbered transcript := by
  cases rewrites with
  | kept read => exact ledger.numbered read
  | grown read _ _ next => exact (ledger.numbered read).append_one next
  | cleared | opened => rfl

private theorem Rewrites.bound (rewrites : Rewrites store effect sessionId transcript)
    (ledger : Ledger effects store) (member : message ∈ transcript)
    (own : message.runId = some ref) : store.CompletedIn ref sessionId := by
  cases rewrites with
  | kept read => exact ledger.bound read member own
  | grown read _ unbound =>
    rcases List.mem_append.mp member with old | new
    · exact ledger.bound read old own
    · rw [List.mem_singleton.mp new, unbound] at own
      contradiction
  | cleared | opened => simp at member

/-- The commit of a completed run stays in the past, whatever else happens. -/
theorem Rewrites.turns (rewrites : Rewrites store effect sessionId transcript)
    (ledger : Ledger effects store) (completed : store.CompletedIn ref sessionId)
    (silent : ∀ other request, effect ≠ .committed other request) :
    ∃ earlier request later, effects ++ [effect] = earlier ++ .committed ref request :: later ∧
      (∀ other, .committed ref other ∉ earlier ++ later) ∧
      Kept later sessionId transcript ref request := by
  have extend : ∀ {before}, store.messages.get? sessionId = some before →
      (∀ later request, Kept later sessionId before ref request →
        Kept (later ++ [effect]) sessionId transcript ref request) →
      ∃ earlier request later, effects ++ [effect] = earlier ++ .committed ref request :: later ∧
        (∀ other, .committed ref other ∉ earlier ++ later) ∧
        Kept later sessionId transcript ref request := by
    intro before read carry
    obtain ⟨earlier, request, later, rfl, once, kept⟩ := ledger.turns completed read
    refine ⟨earlier, request, later ++ [effect], by simp, ?_, carry later request kept⟩
    intro other
    simpa [(silent ref other).symm] using once other
  cases rewrites with
  | kept read other =>
    refine extend read fun later request kept => ?_
    simpa using kept.snoc other (List.forall_mem_nil _)
  | grown read other unbound =>
    exact extend read fun later request kept => kept.snoc other (by simp [unbound])
  | cleared read own =>
    subst own
    exact extend read fun later request _ => .cleared later sessionId ref request
  | opened vacant => exact (vacant ref completed).elim

private theorem Ledger.snoc (ledger : Ledger effects store) (coherent : Coherent store)
    (edit : Edit store effect after) (silent : ∀ ref request, effect ≠ .committed ref request) :
    Ledger (effects ++ [effect]) after where
  numbered read := (rewrites_of_edit edit coherent silent read).numbered ledger
  bound read member own := (edit.completedIn_iff silent _ _).mpr
    ((rewrites_of_edit edit coherent silent read).bound ledger member own)
  credited member := by
    rcases List.mem_append.mp member with old | new
    · obtain ⟨sessionId, completed⟩ := ledger.credited old
      exact ⟨sessionId, (edit.completedIn_iff silent _ _).mpr completed⟩
    · exact (silent _ _ (List.mem_singleton.mp new).symm).elim
  turns completed read := (rewrites_of_edit edit coherent silent read).turns ledger
    ((edit.completedIn_iff silent _ _).mp completed) silent

/-- After a commit exactly its own run is completed in addition. -/
theorem withTurn_completedIn (found : store.runs.get? run.id = some run)
    (running : run.status = .running) (own : run.sessionId = record.id)
    (history : List AgentMessage) (log : List StreamEvent) (request : CommitRunRequest)
    (ambient : Ambient) (ref sessionId : String) :
    (withTurn store run record history log request ambient).CompletedIn ref sessionId ↔
      (ref = run.id ∧ sessionId = record.id) ∨ store.CompletedIn ref sessionId := by
  simp only [CompletedIn, withTurn, withLog, withUpdate, withTranscript, Dict.get?_set]
  by_cases chosen : ref = run.id
  · subst chosen
    simp only [↓reduceIte, Option.some.injEq, true_and, found]
    constructor
    · rintro ⟨_, rfl, _, rfl⟩
      exact .inl own
    · rintro (rfl | ⟨_, rfl, completed, _⟩)
      · exact ⟨_, rfl, rfl, own⟩
      · rw [running] at completed
        contradiction
  · simp [chosen]

private theorem Ledger.commit (ledger : Ledger effects store)
    (found : store.runs.get? run.id = some run)
    (running : run.status = .running) (own : run.sessionId = record.id)
    (transcript : store.messages.get? record.id = some history) (log : List StreamEvent)
    (request : CommitRunRequest) (ambient : Ambient) :
    Ledger (effects ++ [.committed run.id request])
      (withTurn store run record history log request ambient) := by
  have completed := withTurn_completedIn found running own history log request ambient
  have uncommitted : ∀ sessionId, ¬ store.CompletedIn run.id sessionId := by
    rintro sessionId ⟨other, present, done, _⟩
    rw [found] at present
    cases present
    rw [running] at done
    contradiction
  have unused : ∀ other, .committed run.id other ∉ effects := by
    intro other member
    obtain ⟨sessionId, done⟩ := ledger.credited member
    exact uncommitted sessionId done
  have foreign : ∀ message ∈ history, message.runId ≠ some run.id := by
    intro message member bound
    exact uncommitted _ (ledger.bound transcript member bound)
  refine ⟨?_, ?_, ?_, ?_⟩
  · intro sessionId after read
    rw [withTurn_messages, Dict.get?_set] at read
    split at read
    · cases read
      exact (ledger.numbered transcript).append_turn run request ambient
    · exact ledger.numbered read
  · intro sessionId after message ref read member bound
    rw [withTurn_messages, Dict.get?_set] at read
    rw [completed]
    split at read
    · next same =>
      subst same
      cases read
      rcases List.mem_append.mp member with old | new
      · exact .inr (ledger.bound transcript old bound)
      · rw [turnMessages_runId new] at bound
        cases bound
        exact .inl ⟨rfl, rfl⟩
    · exact .inr (ledger.bound read member bound)
  · intro ref other member
    rcases List.mem_append.mp member with old | new
    · obtain ⟨sessionId, done⟩ := ledger.credited old
      exact ⟨sessionId, (completed ref sessionId).mpr (.inr done)⟩
    · cases List.mem_singleton.mp new
      exact ⟨record.id, (completed _ _).mpr (.inl ⟨rfl, rfl⟩)⟩
  · intro ref sessionId after done read
    rw [withTurn_messages, Dict.get?_set] at read
    rcases (completed ref sessionId).mp done with ⟨rfl, rfl⟩ | earlierDone
    · rw [if_pos rfl] at read
      cases read
      exact ⟨effects, request, [], rfl, by simpa using unused,
        fun member => by simp at member,
        fun _ => .ofCommit run request (history.length + 1) ambient foreign⟩
    · have different : ref ≠ run.id := by
        rintro rfl
        exact uncommitted _ earlierDone
      have extend : ∀ {before more}, store.messages.get? sessionId = some before →
          (∀ message ∈ more, message.runId ≠ some ref) →
          ∃ earlier other later, effects ++ [.committed run.id request] =
              earlier ++ .committed ref other :: later ∧
            (∀ another, .committed ref another ∉ earlier ++ later) ∧
            Kept later sessionId (before ++ more) ref other := by
        intro before more former others
        obtain ⟨earlier, other, later, rfl, once, kept⟩ := ledger.turns earlierDone former
        refine ⟨earlier, other, later ++ [.committed run.id request], by simp, ?_,
          kept.snoc (by simp) others⟩
        intro another
        simpa [different] using once another
      split at read
      · next same =>
        subst same
        cases read
        refine extend transcript ?_
        intro message member
        rw [turnMessages_runId member]
        simpa using Ne.symm different
      · simpa using extend read (List.forall_mem_nil _)

/-- A run of edits from the empty store keeps its ledger. -/
theorem edits_ledger (edits : Run Edit empty effects store) : Ledger effects store := by
  generalize origin : empty = start at edits
  induction edits with
  | nil =>
    subst origin
    exact .empty
  | @snoc effects middle effect final earlier edit ih =>
    subst origin
    by_cases silent : ∀ ref request, effect ≠ .committed ref request
    · exact ih.snoc (edits_coherent earlier empty_coherent) edit silent
    · simp only [ne_eq, not_forall, not_not] at silent
      obtain ⟨ref, request, rfl⟩ := silent
      cases edit with
      | commit found running session own transcript read request ambient =>
        exact ih.commit found running own transcript _ request ambient

/-- A successful commit makes its own effect and nothing else. -/
theorem makes_committed (makes : Makes operation reply effects) :
    .committed ref request ∈ effects ↔ operation = .commitRunSuccess ref request ∧
      (∃ run, reply = .ok (.run run)) ∧ effects = [.committed ref request] := by
  constructor
  · intro member
    obtain rfl : operation = _ := makes.origin member
    cases makes with
    | raised => cases member
    | committed run => exact ⟨rfl, ⟨run, rfl⟩, rfl⟩
    | read reads => exact reads.elim
  · rintro ⟨_, _, same⟩
    rw [same]
    exact List.mem_singleton_self _

theorem makes_cleared (makes : Makes operation reply effects) :
    .cleared sessionId ∈ effects ↔ operation = .clearSession sessionId ∧ reply = .ok .unit := by
  constructor
  · intro member
    obtain rfl : operation = _ := makes.origin member
    cases makes with
    | raised => cases member
    | cleared => exact ⟨rfl, rfl⟩
    | read reads => exact reads.elim
  · rintro ⟨rfl, rfl⟩
    cases makes with
    | cleared => exact List.mem_singleton_self _
    | read reads => exact reads.elim

theorem Traces.cleared_iff (traces : Traces calls effects) :
    .cleared sessionId ∈ effects ↔ ∃ call ∈ calls, call.Clears sessionId := by
  induction traces with
  | nil => simp
  | snoc earlier makes ih => simp [ih, makes_cleared makes, Call.Clears, or_and_right, exists_or]

/-- A successful commit call leaves its effect. -/
theorem Traces.committed_of_commits (traces : Traces calls effects) (member : call ∈ calls)
    (commits : call.Commits ref) : ∃ request, .committed ref request ∈ effects := by
  induction traces with
  | nil => simp at member
  | snoc earlier makes ih =>
    rcases List.mem_append.mp member with old | new
    · obtain ⟨request, present⟩ := ih old
      exact ⟨request, List.mem_append_left _ present⟩
    · cases List.mem_singleton.mp new
      obtain ⟨request, run, operation, reply⟩ := commits
      rw [operation, reply] at makes
      cases makes with
      | committed => exact ⟨request, by simp⟩
      | read reads => exact reads.elim

/-- A call with a commit among its effects has made no other effect. -/
theorem commit_alone {call : Call} (makes : Makes call.operation call.reply latest)
    (split : latest = more ++ .committed ref request :: later) :
    more = [] ∧ later = [] ∧ ∃ ambient run, call =
      { ambient, operation := .commitRunSuccess ref request, reply := .ok (.run run) } := by
  have member : .committed ref request ∈ latest := by simp [split]
  obtain ⟨operation, ⟨run, reply⟩, single⟩ := (makes_committed makes).mp member
  have lengths := congrArg List.length (split.symm.trans single)
  simp only [List.length_append, List.length_cons, List.length_nil] at lengths
  refine ⟨List.eq_nil_of_length_eq_zero (by omega), List.eq_nil_of_length_eq_zero (by omega),
    call.ambient, run, ?_⟩
  rw [← operation, ← reply]

/-- The call behind a commit effect, with the calls on both sides of it. -/
theorem Traces.commit_call (traces : Traces calls effects)
    (split : effects = earlier ++ .committed ref request :: later) :
    ∃ before ambient run after, calls = before ++
        { ambient, operation := .commitRunSuccess ref request, reply := .ok (.run run) } :: after ∧
      Traces before earlier ∧ Traces after later := by
  induction traces generalizing later with
  | nil => simp at split
  | @snoc calls effects latest call traces makes ih =>
    rcases List.append_eq_append_iff.mp split with ⟨more, rfl, own⟩ | ⟨more, rfl, own⟩
    · obtain ⟨rfl, rfl, ambient, run, rfl⟩ := commit_alone makes own
      exact ⟨calls, ambient, run, [], rfl, by simpa using traces, .nil⟩
    · cases more with
      | nil =>
        obtain ⟨_, rfl, ambient, run, rfl⟩ :=
          commit_alone makes (own.symm.trans (List.nil_append _).symm)
        exact ⟨calls, ambient, run, [], rfl, by simpa using traces, .nil⟩
      | cons head tail =>
        cases own
        obtain ⟨before, ambient, run, after, rfl, first, second⟩ := ih rfl
        exact ⟨before, ambient, run, after ++ [call], by simp, first, second.snoc makes⟩

/-- The contract of one transcript after a history of calls. -/
structure Paired (calls : List Call) (store : InMemorySessionStore) (sessionId : String)
    (transcript : List AgentMessage) : Prop where
  numbered : transcript.map (·.sequence) = List.range' 1 transcript.length
  bound : message ∈ transcript → message.runId = some ref → store.CompletedIn ref sessionId
  turns : store.CompletedIn ref sessionId → ∃ before ambient request run later,
    calls = before ++
      { ambient, operation := .commitRunSuccess ref request, reply := .ok (.run run) } :: later ∧
    (∀ call ∈ before ++ later, ¬ call.Commits ref) ∧
    ((∃ call ∈ later, call.Clears sessionId) → ∀ message ∈ transcript, message.runId ≠ some ref) ∧
    ((¬ ∃ call ∈ later, call.Clears sessionId) → Turn transcript ref request)
  unfinished : store.runs.get? ref = some run → run.status ≠ .completed →
    message ∈ transcript → message.runId ≠ some ref

/-- Transcripts are numbered, hold no message of a run that is not completed, and
hold one pair per completed run, written by its commit and removed only by a
later clear of the session. -/
theorem history_transcript (history : History empty calls store)
    (opened : store.sessions.get? sessionId = some record) :
    ∃ transcript, store.messages.get? sessionId = some transcript ∧
      Paired calls store sessionId transcript := by
  obtain ⟨transcript, read⟩ := (History.coherent history empty_coherent).transcriptOf opened
  obtain ⟨effects, edits, traces⟩ := history.traces empty_coherent
  have ledger := edits_ledger edits
  refine ⟨transcript, read, ledger.numbered read, ledger.bound read, ?_, ?_⟩
  · intro ref completed
    obtain ⟨earlier, request, later, split, once, cleared, kept⟩ := ledger.turns completed read
    obtain ⟨before, ambient, run, after, same, first, second⟩ := traces.commit_call split
    refine ⟨before, ambient, request, run, after, same, ?_, ?_, ?_⟩
    · intro call member commits
      rcases List.mem_append.mp member with old | new
      · obtain ⟨other, present⟩ := first.committed_of_commits old commits
        exact once other (List.mem_append_left _ present)
      · obtain ⟨other, present⟩ := second.committed_of_commits new commits
        exact once other (List.mem_append_right _ present)
    · exact fun clears => cleared (second.cleared_iff.mpr clears)
    · exact fun uncleared => kept (mt second.cleared_iff.mp uncleared)
  · intro ref run message found unfinished member bound
    obtain ⟨other, present, completed, _⟩ := ledger.bound read member bound
    rw [found] at present
    cases present
    exact unfinished completed

theorem history_transcript_sampleTurn :
    ∃ transcript, (execute empty sampleTurn).2.messages.get? "lake" = some transcript ∧
      Paired (execute empty sampleTurn).1 (execute empty sampleTurn).2 "lake" transcript :=
  history_transcript (execute_history sampleTurn empty (by decide))
    (show (execute empty sampleTurn).2.sessions.get? "lake" = some _ from rfl)

end InMemorySessionStore

end DayuAgent
