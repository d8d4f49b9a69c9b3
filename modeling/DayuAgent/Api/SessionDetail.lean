import DayuAgent.Database.SessionRows

namespace DayuAgent

open Library SQLAlchemyRuntimeStore

structure SessionDetailResponse where
  sessionId : String
  userId : Option String
  status : String
  version : Nat
  metadata : JsonObject
  createdAt : Time
  updatedAt : Time
  messages : List AgentMessage

def SessionRecord.detail (session : SessionRecord) (messages : List AgentMessage) :
    SessionDetailResponse :=
  { sessionId := session.id, userId := session.userId, status := session.status
    version := session.version, metadata := session.metadata, createdAt := session.createdAt
    updatedAt := session.updatedAt, messages }

/-- The handler of `GET /api/v1/sessions/{session_id}`. Each read is a transaction of its own:
`get_session` sees the first database and `list_messages` the second. -/
def Application.getSession (first second : Database) (sessionId : String) :
    Except PyException SessionDetailResponse := do
  let session ← SQLAlchemyRuntimeStore.getSession first sessionId
  let messages ← SQLAlchemyRuntimeStore.listMessages second sessionId
  return session.detail messages

/-- Version and transcript of the session in one database. -/
def Database.Shows (database : Database) (sessionId : String) (version : Nat)
    (messages : List AgentMessage) : Prop :=
  (∃ record, database.sessions.get? sessionId = some record ∧ record.version = version) ∧
    listMessages database sessionId = .ok messages

/-- Some interleaving of some calls reaches the state, sessions being opened at version one and
no identifier being drawn twice. -/
def Cluster.Reached (sessionId : String) (cluster : Cluster Reply) : Prop :=
  ∃ (calls : Workload) (actions : List ServiceAction),
    calls.DrawsOnce sessionId ∧ (∀ action ∈ actions, action.Opens calls sessionId) ∧
      Run Serves calls.start actions cluster

theorem listMessages_transcript {database : Database}
    (found : database.sessions.get? sessionId = some record) :
    listMessages database sessionId =
      .ok (((database.transcript sessionId).filter fun message => message.committed).mergeSort
        fun first second => first.sequence ≤ second.sequence) := by
  have visible : (database.messages.filter fun message =>
      message.sessionId = some sessionId ∧ message.committed) =
        (database.transcript sessionId).filter fun message => message.committed := by
    simp only [Database.transcript, List.filter_filter]
    apply List.filter_congr
    intro message _
    simp [and_comm]
  simp only [listMessages, found, visible]

section Reads

variable {calls : Workload} {before after : Cluster Reply}

/-- Two states of one run in which the session has one version list the same messages. -/
theorem run_same_version (once : calls.DrawsOnce sessionId) (tended : Tended calls sessionId before)
    (run : Run Serves before actions after)
    (opens : ∀ action ∈ actions, action.Opens calls sessionId)
    (first : before.database.sessions.get? sessionId = some record)
    (second : after.database.sessions.get? sessionId = some later)
    (same : later.version = record.version) :
    listMessages after.database sessionId = listMessages before.database sessionId := by
  obtain ⟨amount, rewritten⟩ := run_rewritten once tended run opens first
  obtain ⟨row, present, grown⟩ := rewritten.present first
  obtain rfl := Option.some.inj (present.symm.trans second)
  rw [listMessages_transcript second, listMessages_transcript first,
    rewritten.transcript (by omega)]

end Reads

/-- The detail pairs the version of the state read first with the messages of the state read
last. They belong to one state of the run exactly if both reads would list these messages, so
if the version has not changed between them. -/
theorem session_detail_one_state_iff {calls : Workload} {before after : Cluster Reply}
    (once : calls.DrawsOnce sessionId)
    (opens : ∀ action ∈ first ++ second, action.Opens calls sessionId)
    (earlier : Run Serves calls.start first before) (between : Run Serves before second after)
    (found : before.database.sessions.get? sessionId = some record) :
    ∃ messages, listMessages after.database sessionId = .ok messages ∧
      Application.getSession before.database after.database sessionId =
        .ok (record.detail messages) ∧
      ((∃ front rest state, front ++ rest = first ++ second ∧ Run Serves calls.start front state ∧
          Run Serves state rest after ∧
          state.database.Shows sessionId record.version messages) ↔
        listMessages before.database sessionId = .ok messages) ∧
      ((∃ later, after.database.sessions.get? sessionId = some later ∧
          later.version = record.version) →
        listMessages before.database sessionId = .ok messages) := by
  obtain ⟨opensFirst, opensSecond⟩ := List.forall_mem_append.mp opens
  have tended := run_tended once earlier opensFirst
  obtain ⟨_, rewritten⟩ := run_rewritten once tended between opensSecond found
  obtain ⟨later, present, _⟩ := rewritten.present found
  obtain ⟨messages, listed⟩ : ∃ messages, listMessages after.database sessionId = .ok messages := by
    simp [listMessages, present]
  refine ⟨messages, listed, ?_, ⟨?_, ?_⟩, ?_⟩
  · simp only [Application.getSession, SQLAlchemyRuntimeStore.getSession, found, listed]
    rfl
  · rintro ⟨front, rest, state, split, reached, onward, ⟨row, shown, same⟩, lists⟩
    rw [← lists]
    rcases List.append_eq_append_iff.mp split with ⟨between, rfl, rfl⟩ | ⟨between, rfl, rfl⟩
    · obtain ⟨middle, toState, toBefore⟩ := earlier.split
      obtain rfl : state = middle := reached.deterministic toState
      have opensFront := (List.forall_mem_append.mp opensFirst).1
      have opensBetween := (List.forall_mem_append.mp opensFirst).2
      exact run_same_version once (run_tended once reached opensFront) toBefore opensBetween shown
        found same.symm
    · obtain ⟨middle, toBefore, toState⟩ := reached.split
      obtain rfl : before = middle := earlier.deterministic toBefore
      have opensBetween := (List.forall_mem_append.mp opensSecond).1
      exact (run_same_version once tended toState opensBetween found shown same).symm
  · intro lists
    exact ⟨first, second, before, rfl, earlier, between, ⟨record, found, rfl⟩, lists⟩
  · rintro ⟨row, shown, same⟩
    rw [← listed]
    exact (run_same_version once tended between opensSecond found shown same).symm

/-- Messages that clients append to one session. -/
def appends : Workload := fun _ =>
  (.appendMessage "lake" .user "level?" none, .sample "a" "b")

/-- The session is created before the first read. -/
def lakeOpened : List ServiceAction :=
  [.createSession
    { id := "lake", userId := none, status := "open", metadata := [], version := 1
      createdAt := 0, updatedAt := 0 }]

/-- One append takes effect. -/
def lakeAppended : List ServiceAction := (List.replicate 6 0).map .statement

theorem appends_drawsOnce (sessionId : String) : appends.DrawsOnce sessionId := by
  rintro one two ⟨record, ⟨request, call, _⟩, _⟩
  cases call

theorem appends_opens {actions : List ServiceAction}
    (first : ∀ record, .createSession record ∈ actions → record.version = 1) :
    ∀ action ∈ actions, action.Opens appends sessionId := by
  intro action member
  cases action with
  | createSession record =>
    refine ⟨first record member, ?_⟩
    rintro _ process ⟨_, ⟨_, call, _⟩, _⟩
    cases call
  | statement | prune => trivial

/-- The version of the session and the number of messages it lists. -/
def Database.Counts (database : Database) (version count : Nat) : Prop :=
  (database.sessions.get? "lake").map (·.version) = some version ∧
    (listMessages database "lake").toOption.map List.length = some count

instance (version count : Nat) : DecidablePred fun cluster : Cluster Reply =>
    cluster.database.Counts version count := fun _ =>
  inferInstanceAs (Decidable (_ ∧ _))

theorem appends_reach : ∃ opened appended waiting : Cluster Reply,
    Run Serves appends.start lakeOpened opened ∧ opened.database.Counts 1 0 ∧
    Run Serves opened lakeAppended appended ∧ appended.database.Counts 2 1 ∧
    Run Serves appended [.statement 1] waiting ∧ waiting.database.Counts 2 1 := by
  obtain ⟨opened, first, one⟩ : ∃ cluster : Cluster Reply,
      Run Serves appends.start lakeOpened cluster ∧ cluster.database.Counts 1 0 :=
    follow_reaches (by decide +kernel)
  obtain ⟨appended, second, two⟩ : ∃ cluster : Cluster Reply,
      Run Serves appends.start (lakeOpened ++ lakeAppended) cluster ∧
        cluster.database.Counts 2 1 :=
    follow_reaches (by decide +kernel)
  obtain ⟨waiting, third, three⟩ : ∃ cluster : Cluster Reply,
      Run Serves appends.start ((lakeOpened ++ lakeAppended) ++ [.statement 1]) cluster ∧
        cluster.database.Counts 2 1 :=
    follow_reaches (by decide +kernel)
  obtain ⟨_, toOpened, toAppended⟩ := second.split
  obtain rfl := toOpened.deterministic first
  obtain ⟨_, alsoAppended, toWaiting⟩ := third.split
  obtain rfl := alsoAppended.deterministic second
  exact ⟨_, _, waiting, first, one, toAppended, two, toWaiting, three⟩

theorem Database.Counts.row {database : Database} (counts : database.Counts version count) :
    ∃ record, database.sessions.get? "lake" = some record ∧ record.version = version :=
  Option.map_eq_some_iff.mp counts.1

/-- The second append only locks the session between the two reads. -/
theorem session_detail_one_state_iff_waiting : ∃ (before after : Cluster Reply)
    (record : SessionRecord) (messages : List AgentMessage),
    Run Serves appends.start (lakeOpened ++ lakeAppended) before ∧
      Run Serves before [.statement 1] after ∧
      Application.getSession before.database after.database "lake" =
        .ok (record.detail messages) ∧ record.version = 2 ∧
      ∃ front rest state, front ++ rest = (lakeOpened ++ lakeAppended) ++ [.statement 1] ∧
        Run Serves appends.start front state ∧ Run Serves state rest after ∧
        state.database.Shows "lake" record.version messages := by
  obtain ⟨_, before, after, first, _, second, read, third, reread⟩ := appends_reach
  obtain ⟨record, found, version⟩ := read.row
  obtain ⟨later, present, same⟩ := reread.row
  have opens : ∀ action ∈ (lakeOpened ++ lakeAppended) ++ [.statement 1],
      action.Opens appends "lake" := by
    apply appends_opens
    simp [lakeOpened, lakeAppended]
  obtain ⟨messages, _, answered, exact, unchanged⟩ := session_detail_one_state_iff
    (appends_drawsOnce "lake") opens (first.append second) third found
  refine ⟨before, after, record, messages, first.append second, third, answered, version, ?_⟩
  exact exact.mpr (unchanged ⟨later, present, same.trans version.symm⟩)

/-- The version of the first read with the messages of the second: no state that any calls
reach has both. -/
theorem torn_session_detail : ∃ (before after : Cluster Reply) (detail : SessionDetailResponse),
    Run Serves appends.start lakeOpened before ∧ Run Serves before lakeAppended after ∧
      Application.getSession before.database after.database "lake" = .ok detail ∧
      ∀ cluster : Cluster Reply, cluster.Reached "lake" →
        ¬ cluster.database.Shows "lake" detail.version detail.messages := by
  obtain ⟨before, after, _, first, read, second, reread, _, _⟩ := appends_reach
  obtain ⟨record, found, version⟩ := read.row
  obtain ⟨messages, listed, counted⟩ : ∃ messages,
      listMessages after.database "lake" = .ok messages ∧ messages.length = 1 := by
    have count := reread.2
    cases answer : listMessages after.database "lake" with
    | error error => simp [answer, Except.toOption] at count
    | ok messages => exact ⟨messages, rfl, by simpa [answer, Except.toOption] using count⟩
  refine ⟨before, after, record.detail messages, first, second, ?_, ?_⟩
  · simp only [Application.getSession, SQLAlchemyRuntimeStore.getSession, found, listed]
    rfl
  · rintro cluster ⟨calls, actions, once, opens, run⟩ ⟨⟨row, shown, same⟩, lists⟩
    have tended := run_tended once run opens
    have blank : cluster.database.transcript "lake" = [] := by
      refine tended.blank fun other present => ?_
      obtain rfl := Option.some.inj (shown.symm.trans present)
      exact (same.trans version).le
    rw [listMessages_transcript shown, blank] at lists
    obtain rfl := Except.ok.inj lists
    simp at counted

end DayuAgent
