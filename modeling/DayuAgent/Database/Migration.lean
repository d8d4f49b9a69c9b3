import Mathlib.Data.String.Basic
import DayuAgent.Database.Retention
import DayuAgent.Library.RowNumber

/-! Revision 0002 of the schema: its downgrade drops the order of the messages, and its upgrade
rebuilds one from their creation times and identifiers. -/

namespace DayuAgent

open Library SQLAlchemyRuntimeStore

/-- A row of `agent_sessions` at revision 0001. -/
structure Phase00Session where
  id : String
  metadata : JsonObject
  createdAt : Time
  updatedAt : Time

/-- A row of `agent_messages` at revision 0001. -/
structure Phase00Message where
  id : String
  sessionId : Option String
  role : MessageRole
  content : String
  metadata : JsonObject
  createdAt : Time

structure Phase00Database where
  sessions : Dict String Phase00Session
  messages : List Phase00Message

def SessionRecord.phase00 (record : SessionRecord) : Phase00Session where
  id := record.id
  metadata := record.metadata
  createdAt := record.createdAt
  updatedAt := record.updatedAt

def AgentMessage.phase00 (message : AgentMessage) : Phase00Message where
  id := message.id
  sessionId := message.sessionId
  role := message.role
  content := message.content
  metadata := message.metadata
  createdAt := message.createdAt

/-- `ORDER BY created_at, id` under the collation of the database. -/
def Precedes (collation : LinearOrder String) (first second : Time × String) : Prop :=
  first.1 < second.1 ∨ first.1 = second.1 ∧ collation.le first.2 second.2

instance (collation : LinearOrder String) (first second : Time × String) :
    Decidable (Precedes collation first second) :=
  haveI := collation.toDecidableLE first.2 second.2
  inferInstanceAs (Decidable (_ ∨ _))

namespace Phase01Runtime

/-- Why `upgrade` can fail: a message without a number, or a number used twice. -/
inductive IntegrityError where
  | notNullViolation
  | uniqueViolation

/-- Runs, events and the new columns are dropped. -/
def downgrade (database : Database) : Phase00Database where
  sessions := database.sessions.transport id Function.injective_id SessionRecord.phase00
  messages := database.messages.map AgentMessage.phase00

section Upgrade

variable (collation : LinearOrder String)

def earlier (first second : Phase00Message) : Bool :=
  Precedes collation (first.createdAt, first.id) (second.createdAt, second.id)

/-- The backfilled column: the position of the row in `ordered`. -/
def position (rows : List Phase00Message) (row : Phase00Message) : Option Nat :=
  numberOf (·.sessionId) (earlier collation) (·.id) rows row

/-- An old message with its number and the defaults of the other new columns. -/
def upgradedMessage (row : Phase00Message) (sequence : Nat) : AgentMessage :=
  { id := row.id, sessionId := row.sessionId, runId := none, role := row.role
    content := row.content, sequence, committed := true, metadata := row.metadata
    createdAt := row.createdAt }

def upgradedSession (row : Phase00Session) : SessionRecord :=
  { id := row.id, userId := none, status := "open", metadata := row.metadata, version := 1
    createdAt := row.createdAt, updatedAt := row.updatedAt }

def backfilled (rows : List Phase00Message) : List AgentMessage :=
  rows.map fun row => upgradedMessage row ((position collation rows row).getD 0)

def upgraded (database : Phase00Database) : Database :=
  { sessions := database.sessions.transport id Function.injective_id upgradedSession
    runs := .empty, messages := backfilled collation database.messages, events := [] }

def upgrade (database : Phase00Database) : Except IntegrityError Database :=
  if ∃ row ∈ database.messages, position collation database.messages row = none then
    .error .notNullViolation
  else if ((backfilled collation database.messages).map fun message =>
      (message.sessionId, message.sequence)).Nodup then .ok (upgraded collation database)
  else .error .uniqueViolation

end Upgrade

end Phase01Runtime

open Phase01Runtime

/-- What a reader of a transcript sees. -/
def spoken (messages : List AgentMessage) : List (MessageRole × String) :=
  messages.map fun message => (message.role, message.content)

/-- The messages stand in the order of their creation times and identifiers. -/
def Chronological (collation : LinearOrder String) (messages : List AgentMessage) : Prop :=
  messages.Pairwise fun first second =>
    Precedes collation (first.createdAt, first.id) (second.createdAt, second.id)

/-- The messages of a session, arranged so. -/
def Database.chronological (collation : LinearOrder String) (database : Database)
    (sessionId : String) : List AgentMessage :=
  (database.messages.filter fun message => message.sessionId = some sessionId).mergeSort
    fun first second =>
      Precedes collation (first.createdAt, first.id) (second.createdAt, second.id)

section Order

variable {collation : LinearOrder String}

theorem Precedes.trans (first : Precedes collation one two)
    (second : Precedes collation two three) : Precedes collation one three := by
  rcases first with less | ⟨same, before⟩
  · rcases second with again | ⟨equal, _⟩
    · exact .inl (less.trans again)
    · exact .inl (equal ▸ less)
  · rcases second with less | ⟨equal, after⟩
    · exact .inl (same ▸ less)
    · exact .inr ⟨same.trans equal, collation.le_trans _ _ _ before after⟩

theorem Precedes.total (one two : Time × String) :
    Precedes collation one two ∨ Precedes collation two one := by
  rcases lt_trichotomy one.1 two.1 with less | same | greater
  · exact .inl (.inl less)
  · exact (collation.le_total one.2 two.2).imp (fun le => .inr ⟨same, le⟩)
      fun le => .inr ⟨same.symm, le⟩
  · exact .inr (.inl greater)

theorem Precedes.named (first : Precedes collation one two) (second : Precedes collation two one) :
    one.2 = two.2 := by
  rcases first with less | ⟨same, before⟩
  · rcases second with again | ⟨equal, _⟩
    · exact (lt_asymm less again).elim
    · exact (less.ne' equal).elim
  · rcases second with less | ⟨_, after⟩
    · exact (less.ne' same).elim
    · exact collation.le_antisymm _ _ before after

end Order

section RoundTrip

variable {collation : LinearOrder String} {rows : List Phase00Message} {database : Database}

/-- With identifiers of their own, all messages get numbers, and no session uses one twice. -/
theorem upgrade_ok (distinct : (rows.map (·.id)).Nodup) (sessions : Dict String Phase00Session) :
    upgrade collation ⟨sessions, rows⟩ = .ok (upgraded collation ⟨sessions, rows⟩) := by
  have numbered : ¬ ∃ row ∈ rows, position collation rows row = none := by
    rintro ⟨row, member, missing⟩
    obtain ⟨place, listed⟩ : ∃ place,
        (row, place) ∈ rowNumbers (·.sessionId) (earlier collation) rows := numbered_of_mem member
    rw [position, numberOf_eq distinct listed] at missing
    contradiction
  have unique : ((backfilled collation rows).map fun message =>
      (message.sessionId, message.sequence)).Nodup := by
    rw [backfilled, List.map_map]
    refine distinct.of_map.map_on fun one first two second same => ?_
    obtain ⟨owners, number⟩ := Prod.mk.inj same
    have together : one.sessionId = two.sessionId := owners
    have injective : position collation rows one = position collation rows two → one = two :=
      numberOf_injective distinct first together second
    refine injective ?_
    cases own : position collation rows one with
    | none => exact (numbered ⟨one, first, own⟩).elim
    | some place =>
      cases other : position collation rows two with
      | none => exact (numbered ⟨two, second, other⟩).elim
      | some position =>
        simp only [upgradedMessage, own, other, Option.getD_some] at number
        exact congrArg some number
  rw [upgrade, if_neg numbered, if_pos unique]

/-- The upgraded messages of one session, as the window function numbers them. -/
theorem backfilled_group (distinct : (rows.map (·.id)).Nodup) (own : Option String) :
    ((backfilled collation rows).filter fun message => message.sessionId = own).Perm
      (((sortedGroup (·.sessionId) (earlier collation) rows own).zipIdx 1).map fun entry =>
        upgradedMessage entry.1 entry.2) := by
  have numbered : (sortedGroup (·.sessionId) (earlier collation) rows own).map (fun row =>
      upgradedMessage row ((position collation rows row).getD 0)) = _ :=
    numbered_group upgradedMessage distinct
  rw [← numbered, backfilled, List.filter_map]
  exact sortedGroup_perm.symm.map _

private theorem sortedGroup_downgrade (database : Database) (sessionId : String) :
    sortedGroup (·.sessionId) (earlier collation) (downgrade database).messages (some sessionId) =
      (database.chronological collation sessionId).map AgentMessage.phase00 := by
  rw [sortedGroup, Database.chronological, List.map_mergeSort, downgrade, List.filter_map]
  · rfl
  · intro first _ second _
    rfl

theorem upgraded_session (database : Database) (sessionId : String) :
    (upgraded collation (downgrade database)).sessions.get? sessionId =
      (database.sessions.get? sessionId).map fun record => upgradedSession record.phase00 := by
  have lowered := database.sessions.transport_get? id Function.injective_id
    SessionRecord.phase00 sessionId
  have raised := (downgrade database).sessions.transport_get? id Function.injective_id
    upgradedSession sessionId
  exact (raised.trans (congrArg (Option.map upgradedSession) lowered)).trans (Option.map_map ..)

theorem downgrade_distinct (distinct : (database.messages.map (·.id)).Nodup) :
    ((downgrade database).messages.map (·.id)).Nodup := by
  rw [downgrade, List.map_map]
  exact distinct

/-- After the round trip a session lists its messages by creation time and identifier. -/
theorem listMessages_upgraded (distinct : (database.messages.map (·.id)).Nodup)
    (found : database.sessions.get? sessionId = some record) :
    listMessages (upgraded collation (downgrade database)) sessionId =
      .ok (((database.chronological collation sessionId).zipIdx 1).map fun entry =>
        upgradedMessage entry.1.phase00 entry.2) := by
  have listed : ((backfilled collation (downgrade database).messages).filter
      fun message => message.sessionId = some sessionId).Perm _ :=
    backfilled_group (downgrade_distinct distinct) (some sessionId)
  rw [sortedGroup_downgrade, List.zipIdx_map, List.map_map] at listed
  have visible : ((upgraded collation (downgrade database)).messages.filter fun message =>
      message.sessionId = some sessionId ∧ message.committed) =
        (backfilled collation (downgrade database).messages).filter
          fun message => message.sessionId = some sessionId := by
    apply List.filter_congr
    intro message member
    obtain ⟨row, _, rfl⟩ := List.mem_map.mp member
    by_cases own : row.sessionId = some sessionId <;> simp [upgradedMessage, own]
  simp only [listMessages, upgraded_session, found, Option.map_some]
  refine congrArg Except.ok ?_
  rw [visible]
  refine mergeSort_ascending (·.sequence) listed ?_
  apply List.pairwise_map.mpr
  have counted : (((database.chronological collation sessionId).zipIdx 1).map Prod.snd).Pairwise
      (· < ·) := by
    rw [List.zipIdx_map_snd]
    exact List.pairwise_lt_range'
  exact List.pairwise_map.mp counted

theorem chronological_sorted (database : Database) (sessionId : String) :
    Chronological collation (database.chronological collation sessionId) := by
  refine (List.pairwise_mergeSort ?_ ?_ _).imp fun sorted => of_decide_eq_true sorted
  · intro one two three first second
    simp only [decide_eq_true_eq] at first second ⊢
    exact first.trans second
  · intro one two
    simpa using Precedes.total (one.createdAt, one.id) (two.createdAt, two.id)

theorem chronological_eq (distinct : (database.messages.map (·.id)).Nodup)
    (perm :
      (database.messages.filter fun message => message.sessionId = some sessionId).Perm sorted)
    (ordered : Chronological collation sorted) :
    database.chronological collation sessionId = sorted := by
  refine mergeSort_unique ?_ ?_ ?_ perm (ordered.imp fun earlier => decide_eq_true earlier)
  · intro one two three first second
    simp only [decide_eq_true_eq] at first second ⊢
    exact first.trans second
  · intro one two
    simpa using Precedes.total (one.createdAt, one.id) (two.createdAt, two.id)
  · intro one first two second before after
    simp only [decide_eq_true_eq] at before after
    have stored : ∀ message ∈ sorted, message ∈ database.messages :=
      fun message member => (List.mem_filter.mp (perm.symm.subset member)).1
    exact List.inj_on_of_nodup_map distinct (stored one first) (stored two second)
      (before.named after)

theorem listMessages_sorted (committed : ∀ message ∈ database.messages, message.committed = true)
    (listed : listMessages database sessionId = .ok messages) : messages =
      (database.messages.filter fun message => message.sessionId = some sessionId).mergeSort
        fun first second => first.sequence ≤ second.sequence := by
  cases found : database.sessions.get? sessionId with
  | none => simp [listMessages, found] at listed
  | some record =>
    have visible : (database.messages.filter fun message =>
        message.sessionId = some sessionId ∧ message.committed) =
          database.messages.filter fun message => message.sessionId = some sessionId := by
      apply List.filter_congr
      intro message member
      simp [committed message member]
    simp only [listMessages, found, Except.ok.injEq, visible] at listed
    exact listed.symm

/-- The migrated transcript counts from one and reads in the order of the backfill. -/
theorem migrated_spoken (distinct : (database.messages.map (·.id)).Nodup)
    (found : database.sessions.get? sessionId = some record) : ∃ messages,
      listMessages (upgraded collation (downgrade database)) sessionId = .ok messages ∧
      messages.map (·.sequence) = List.range' 1 messages.length ∧
      spoken messages = spoken (database.chronological collation sessionId) := by
  refine ⟨_, listMessages_upgraded distinct found, ?_, ?_⟩
  · rw [List.map_map, List.length_map, List.length_zipIdx]
    exact List.zipIdx_map_snd 1 _
  · have plain := List.zipIdx_map_fst 1 (database.chronological collation sessionId)
    conv_rhs => rw [spoken, ← plain]
    rw [spoken, List.map_map, List.map_map]
    rfl

end RoundTrip

/-- The round trip succeeds, numbers every transcript from one and shows the same one. -/
def Preserves (collation : LinearOrder String) (database : Database) : Prop :=
  ∃ migrated, upgrade collation (downgrade database) = .ok migrated ∧ ∀ sessionId,
    (∀ messages, listMessages migrated sessionId = .ok messages →
      messages.map (·.sequence) = List.range' 1 messages.length) ∧
    (listMessages migrated sessionId).map spoken = (listMessages database sessionId).map spoken

theorem preserves_iff {collation : LinearOrder String} {database : Database}
    (distinct : (database.messages.map (·.id)).Nodup) :
    Preserves collation database ↔ ∀ sessionId messages,
      listMessages database sessionId = .ok messages →
        spoken (database.chronological collation sessionId) = spoken messages := by
  have upgrades : upgrade collation (downgrade database) =
      .ok (upgraded collation (downgrade database)) :=
    upgrade_ok (downgrade_distinct distinct) (downgrade database).sessions
  constructor
  · rintro ⟨migrated, succeeds, heard⟩ sessionId messages listed
    obtain rfl := Except.ok.inj (upgrades.symm.trans succeeds)
    cases found : database.sessions.get? sessionId with
    | none => simp [listMessages, found] at listed
    | some record =>
      obtain ⟨later, migrates, _, reads⟩ := migrated_spoken distinct found
      have same := (heard sessionId).2
      rw [migrates, listed] at same
      exact reads.symm.trans (Except.ok.inj same)
  · intro same
    refine ⟨_, upgrades, fun sessionId => ?_⟩
    cases found : database.sessions.get? sessionId with
    | none => simp [listMessages, upgraded_session, found]
    | some record =>
      obtain ⟨later, migrates, counts, reads⟩ := migrated_spoken distinct found
      obtain ⟨messages, listed⟩ : ∃ messages, listMessages database sessionId = .ok messages := by
        simp [listMessages, found]
      rw [migrates, listed]
      refine ⟨fun others own => ?_, ?_⟩
      · cases own
        exact counts
      · exact congrArg Except.ok (reads.trans (same sessionId messages listed))

theorem run_committed {calls : Workload} (run : Run Serves calls.start actions cluster) :
    ∀ message ∈ cluster.database.messages, message.committed = true := by
  have sourced := run_sourced
    (fun process => (calls process).1.transaction_flushes (calls process).2) run
  intro message member
  obtain ⟨process, drawn⟩ := sourced.stored message member
  exact drawn.2.1

/-- Downgrade and upgrade preserve the transcripts of a reachable database exactly if those
read the same once arranged by creation time and identifier, so if they stand in that order. -/
theorem migration_preserves_iff (collation : LinearOrder String) {calls : Workload}
    (run : Run Serves calls.start actions cluster)
    (distinct : (cluster.database.messages.map (·.id)).Nodup) :
    (Preserves collation cluster.database ↔ ∀ sessionId messages arranged,
      listMessages cluster.database sessionId = .ok messages → arranged.Perm messages →
        Chronological collation arranged → spoken arranged = spoken messages) ∧
    ((∀ sessionId messages, listMessages cluster.database sessionId = .ok messages →
      Chronological collation messages) → Preserves collation cluster.database) := by
  have arrange : ∀ {sessionId messages arranged},
      listMessages cluster.database sessionId = .ok messages → arranged.Perm messages →
        Chronological collation arranged →
          cluster.database.chronological collation sessionId = arranged := by
    intro sessionId messages arranged listed perm
    apply chronological_eq distinct
    rw [listMessages_sorted (run_committed run) listed] at perm
    exact ((List.mergeSort_perm _ _).symm).trans perm.symm
  refine ⟨(preserves_iff distinct).trans ⟨?_, ?_⟩, fun ordered => ?_⟩
  · intro same sessionId messages arranged listed perm ordered
    rw [← arrange listed perm ordered]
    exact same sessionId messages listed
  · intro same sessionId messages listed
    refine same sessionId messages _ listed ?_ (chronological_sorted cluster.database sessionId)
    rw [listMessages_sorted (run_committed run) listed]
    exact (List.mergeSort_perm _ _).trans (List.mergeSort_perm _ _).symm
  · refine (preserves_iff distinct).mpr fun sessionId messages listed => ?_
    rw [arrange listed (.refl _) (ordered sessionId messages listed)]

/-- One turn of one session, whose two messages get the given identifiers. -/
def oneTurn (user assistant : String) : Workload
  | 0 => (.reserveRun (.sample none none "hash"), .since 0 "lake" "run")
  | 1 => (.markRunRunning "run" "worker", .since 1 "a" "a")
  | process => (.commitRunSuccess "run" .sample, .since process user assistant)

theorem oneTurn_stamped (user assistant : String) : (oneTurn user assistant).StampedAt id := by
  refine Workload.stampedAt_of_now fun process _ => ?_
  match process with
  | 0 | 1 | _ + 2 => rfl

def turnSchedule : List ServiceAction :=
  ([0, 0, 0, 0, 1, 1, 1, 1, 1] ++ List.replicate 10 2).map .statement

/-- The turn is stored: its session and two messages, created at one time. -/
def TurnStored (user assistant : String) (cluster : Cluster Reply) : Prop :=
  (cluster.database.sessions.get? "lake").isSome ∧
  cluster.database.messages.map (·.id) = [user, assistant] ∧
  cluster.database.messages.map (·.sessionId) = [some "lake", some "lake"] ∧
  cluster.database.messages.map (·.createdAt) = [2, 2] ∧
  cluster.database.messages.map (·.sequence) = [1, 2] ∧
  spoken cluster.database.messages = [(.user, "level?"), (.assistant, "high")]

instance (user assistant : String) : DecidablePred (TurnStored user assistant) := fun _ =>
  inferInstanceAs (Decidable (_ ∧ _ ∧ _ ∧ _ ∧ _ ∧ _))

theorem TurnStored.rows (stored : TurnStored user assistant cluster) : ∃ first second,
    cluster.database.messages = [first, second] ∧ first.id = user ∧ second.id = assistant ∧
      first.sessionId = some "lake" ∧ second.sessionId = some "lake" ∧
      first.createdAt = second.createdAt ∧ first.sequence < second.sequence := by
  obtain ⟨_, ids, sessions, times, sequences, _⟩ := stored
  match rows : cluster.database.messages with
  | [] => simp [rows] at ids
  | [one] => simp [rows] at ids
  | one :: two :: three :: rest => simp [rows] at ids
  | [first, second] =>
    simp only [rows, List.map_cons, List.map_nil, List.cons.injEq, and_true] at ids sessions
    simp only [rows, List.map_cons, List.map_nil, List.cons.injEq, and_true] at times sequences
    refine ⟨first, second, rfl, ids.1, ids.2, sessions.1, sessions.2, ?_, ?_⟩
    · rw [times.1, times.2]
    · rw [sequences.1, sequences.2]
      decide

/-- Before the migration the turn is listed as it is stored. -/
theorem TurnStored.listed (stored : TurnStored user assistant cluster)
    (committed : ∀ message ∈ cluster.database.messages, message.committed = true)
    (listed : listMessages cluster.database sessionId = .ok messages) :
    messages = cluster.database.messages.filter fun message =>
      message.sessionId = some sessionId := by
  obtain ⟨first, second, rows, _, _, _, _, _, order⟩ := stored.rows
  have ascending :
      cluster.database.messages.Pairwise fun one two => one.sequence < two.sequence := by
    simpa [rows] using order
  rw [listMessages_sorted committed listed]
  exact mergeSort_ascending AgentMessage.sequence (.refl _) (ascending.filter _)

theorem migration_preserves_iff_ascending : ∃ cluster,
    Run Serves (oneTurn "a" "b").start turnSchedule cluster ∧
      spoken cluster.database.messages = [(.user, "level?"), (.assistant, "high")] ∧
      Preserves inferInstance cluster.database := by
  obtain ⟨cluster, run, stored⟩ : ∃ cluster,
      Run Serves (oneTurn "a" "b").start turnSchedule cluster ∧ TurnStored "a" "b" cluster :=
    follow_reaches (by decide +kernel)
  have distinct : (cluster.database.messages.map (·.id)).Nodup := by
    rw [stored.2.1]
    decide
  have exact := migration_preserves_iff inferInstance run distinct
  refine ⟨cluster, run, stored.2.2.2.2.2, exact.2 fun sessionId messages listed => ?_⟩
  obtain ⟨first, second, rows, user, assistant, _, _, time, _⟩ := stored.rows
  rw [stored.listed (run_committed run) listed]
  refine List.Pairwise.filter _ ?_
  rw [rows, List.pairwise_pair, time, user, assistant]
  exact .inr ⟨rfl, (by decide : "a" ≤ "b")⟩

theorem migration_swaps_turn : ∃ cluster,
    Run Serves (oneTurn "b" "a").start turnSchedule cluster ∧
      (oneTurn "b" "a").StampedAt id ∧ (cluster.database.messages.map (·.id)).Nodup ∧
      ¬ Preserves inferInstance cluster.database := by
  obtain ⟨cluster, run, stored⟩ : ∃ cluster,
      Run Serves (oneTurn "b" "a").start turnSchedule cluster ∧ TurnStored "b" "a" cluster :=
    follow_reaches (by decide +kernel)
  have distinct : (cluster.database.messages.map (·.id)).Nodup := by
    rw [stored.2.1]
    decide
  refine ⟨cluster, run, oneTurn_stamped "b" "a", distinct, fun preserves => ?_⟩
  obtain ⟨first, second, rows, user, assistant, owner, same, time, _⟩ := stored.rows
  obtain ⟨record, found⟩ := Option.isSome_iff_exists.mp stored.1
  obtain ⟨messages, listed⟩ : ∃ messages, listMessages cluster.database "lake" = .ok messages := by
    simp [listMessages, found]
  have reads := (preserves_iff distinct).mp preserves "lake" messages listed
  have both : (cluster.database.messages.filter fun message => message.sessionId = some "lake") =
      [first, second] := by
    simp [rows, owner, same]
  have swapped : cluster.database.chronological inferInstance "lake" = [second, first] := by
    apply chronological_eq distinct
    · rw [both]
      exact .swap _ _ _
    · rw [Chronological, List.pairwise_pair, time, user, assistant]
      exact .inr ⟨rfl, (by decide : "a" ≤ "b")⟩
  have speech := stored.2.2.2.2.2
  rw [swapped, stored.listed (run_committed run) listed, both] at reads
  rw [rows] at speech
  simp only [spoken, List.map_cons, List.map_nil, List.cons.injEq, and_true] at reads speech
  rw [speech.1, speech.2] at reads
  exact absurd reads.1 (by decide)

end DayuAgent
