import DayuAgent.Database.Execution
import DayuAgent.Memory.Counted
import DayuAgent.Memory.Renaming

/-! The in-memory store and the rows of the PostgreSQL store that mirror it, up to a renaming
of the identifiers, and the writes that keep them so. -/

namespace DayuAgent

open Library InMemorySessionStore
open SQLAlchemyRuntimeStore (maxSequence activeRunIn followingEvent)

structure Mirrors (names : Renaming) (store : InMemorySessionStore) (database : Database) :
    Prop where
  sessions : database.sessions =
    store.sessions.transport names names.injective (SessionRecord.rename names)
  runs : database.runs = store.runs.transport names names.injective (AgentRun.rename names)
  transcripts : ∀ sessionId, database.transcript (names sessionId) =
    ((store.messages.get? sessionId).getD []).map (·.rename names)
  logs : ∀ ref, database.eventLog (names ref) = (eventLog store ref).map (·.rename names)
  committed : ∀ message ∈ database.messages, message.committed = true
  owned : ∀ event ∈ database.events, ∃ ref run, event.runId = names ref ∧
    store.runs.get? ref = some run
  unnamed : store.sessions.get? "" = none

/-- The run that carries a key is the run that the key is bound to. -/
theorem InMemorySessionStore.Coherent.keyed_run {store : InMemorySessionStore}
    (coherent : Coherent store) (key : String) :
    (store.runs.values.find? fun run => run.idempotencyKey = some key) =
      (store.idempotency.get? key).bind store.runs.get? := by
  have carries : ∀ {run}, (store.runs.values.find? fun run => run.idempotencyKey = some key) =
      some run → ∃ ref, store.idempotency.get? key = some ref ∧ store.runs.get? ref = some run := by
    intro run chosen
    obtain ⟨ref, found⟩ := (Dict.mem_values_iff _ _).mp (List.mem_of_find?_eq_some chosen)
    have carried := List.find?_some chosen
    simp only [decide_eq_true_eq] at carried
    exact ⟨ref, coherent.bindings.mpr ⟨run, found, carried⟩, found⟩
  cases chosen : store.runs.values.find? fun run => run.idempotencyKey = some key with
  | some run =>
    obtain ⟨ref, bound, found⟩ := carries chosen
    rw [bound, Option.bind_some, found]
  | none =>
    cases bound : store.idempotency.get? key with
    | none => rfl
    | some ref =>
      obtain ⟨run, found, carried⟩ := coherent.bindings.mp bound
      have listed := (Dict.mem_values_iff _ run).mpr ⟨ref, found⟩
      have absent := List.find?_eq_none.mp chosen run listed
      simp [carried] at absent

namespace Mirrors

variable {names : Renaming} {store : InMemorySessionStore} {database : Database}

theorem empty (names : Renaming) : Mirrors names InMemorySessionStore.empty Database.empty where
  sessions := rfl
  runs := rfl
  transcripts _ := rfl
  logs _ := rfl
  committed := by simp [Database.empty]
  owned := by simp [Database.empty]
  unnamed := rfl

section Queries

theorem sessionRow (mirrors : Mirrors names store database) (sessionId : String) :
    database.sessions.get? (names sessionId) =
      (store.sessions.get? sessionId).map (·.rename names) := by
  rw [mirrors.sessions, Dict.transport_get?]

theorem runRow (mirrors : Mirrors names store database) (ref : String) :
    database.runs.get? (names ref) = (store.runs.get? ref).map (·.rename names) := by
  rw [mirrors.runs, Dict.transport_get?]

theorem runValues (mirrors : Mirrors names store database) :
    database.runs.values = store.runs.values.map (·.rename names) := by
  rw [mirrors.runs, Dict.transport_values]

/-- A search among the runs that the renaming does not confuse. -/
theorem find (mirrors : Mirrors names store database) {test other : AgentRun → Bool}
    (same : ∀ run : AgentRun, test (run.rename names) = other run) :
    database.runs.values.find? test = (store.runs.values.find? other).map (·.rename names) := by
  rw [mirrors.runValues, List.find?_map]
  have tests : test ∘ AgentRun.rename names = other := funext same
  rw [tests]

theorem activeRow (mirrors : Mirrors names store database) (sessionId : String) :
    activeRunIn (names sessionId) database =
      (activeRunLocked store sessionId).map (·.rename names) := by
  refine mirrors.find fun run => decide_eq_decide.mpr ?_
  simp only [AgentRun.rename, AgentRun.Active, names.injective.eq_iff]

/-- The key map of the one store and the key column of the other. -/
theorem keyRow (mirrors : Mirrors names store database) (coherent : Coherent store) (key : String) :
    (RunQuery.byKey key).find database =
      ((store.idempotency.get? key).bind store.runs.get?).map (·.rename names) := by
  rw [RunQuery.find, mirrors.find fun run => rfl, ← coherent.keyed_run key]
  rfl

end Queries

theorem named (mirrors : Mirrors names store database)
    (found : store.sessions.get? record.id = some record) : "" ≠ record.id := by
  intro same
  have unnamed := mirrors.unnamed
  rw [same, found] at unnamed
  contradiction

section Writes

/-- A new session without messages. -/
theorem openSession (mirrors : Mirrors names store database) (coherent : Coherent store)
    (record : SessionRecord) (absent : store.sessions.get? record.id = none)
    (named : record.id ≠ "") :
    Mirrors names (withSession store record) (database.apply (.session (record.rename names))) where
  sessions := by
    rw [withSession, Dict.transport_set, ← mirrors.sessions]
    rfl
  runs := mirrors.runs
  transcripts sessionId := by
    have kept := mirrors.transcripts sessionId
    by_cases same : sessionId = record.id
    · subst same
      have unread : store.messages.get? record.id = none := by
        rw [← Option.not_isSome_iff_eq_none, coherent.transcripts, absent]
        simp
      rw [unread] at kept
      rw [withSession, Dict.get?_set_self]
      exact kept
    · rw [withSession, Dict.get?_set_ne _ _ same]
      exact kept
  logs := mirrors.logs
  committed := mirrors.committed
  owned := mirrors.owned
  unnamed := (Dict.get?_set_ne _ _ named.symm).trans mirrors.unnamed

/-- More messages at the end of one transcript. -/
theorem tell (mirrors : Mirrors names store database)
    (found : store.sessions.get? record.id = some record)
    (read : store.messages.get? record.id = some history) (added : List AgentMessage)
    (own : ∀ message ∈ added, message.sessionId = some record.id ∧ message.committed = true)
    (now : Time) :
    Mirrors names (withTranscript store record (history ++ added) now) { database with
      messages := database.messages ++ added.map (·.rename names)
      sessions :=
        database.sessions.set (names record.id) ((touched record now).rename names) } where
  sessions := by
    rw [withTranscript, Dict.transport_set, ← mirrors.sessions]
  runs := mirrors.runs
  transcripts sessionId := by
    have kept := mirrors.transcripts sessionId
    simp only [Database.transcript, List.filter_append] at kept ⊢
    rw [kept]
    by_cases same : sessionId = record.id
    · subst same
      have all : (added.map (·.rename names)).filter
          (fun message => message.sessionId = some (names record.id)) =
            added.map (·.rename names) := by
        apply List.filter_eq_self.mpr
        intro message member
        obtain ⟨original, among, rfl⟩ := List.mem_map.mp member
        simp [AgentMessage.rename, (own original among).1]
      rw [all, withTranscript, Dict.get?_set_self, read]
      simp
    · have none : (added.map (·.rename names)).filter
          (fun message => message.sessionId = some (names sessionId)) = [] := by
        apply List.filter_eq_nil_iff.mpr
        intro message member
        obtain ⟨original, among, rfl⟩ := List.mem_map.mp member
        have different : names record.id ≠ names sessionId := names.injective.ne (Ne.symm same)
        simp [AgentMessage.rename, (own original among).1, different]
      rw [none, List.append_nil, withTranscript, Dict.get?_set_ne _ _ same]
  logs := mirrors.logs
  committed message member := by
    rcases List.mem_append.mp member with old | new
    · exact mirrors.committed message old
    · obtain ⟨original, among, rfl⟩ := List.mem_map.mp new
      exact (own original among).2
  owned := mirrors.owned
  unnamed := (Dict.get?_set_ne _ _ (mirrors.named found)).trans mirrors.unnamed

/-- The messages of one session are gone. -/
theorem clear (mirrors : Mirrors names store database)
    (found : store.sessions.get? record.id = some record) (now : Time) :
    Mirrors names (withTranscript store record [] now) { database with
      messages := database.messages.filter fun message =>
        message.sessionId ≠ some (names record.id)
      sessions :=
        database.sessions.set (names record.id) ((touched record now).rename names) } where
  sessions := by
    rw [withTranscript, Dict.transport_set, ← mirrors.sessions]
  runs := mirrors.runs
  transcripts sessionId := by
    have kept := mirrors.transcripts sessionId
    simp only [Database.transcript, List.filter_filter] at kept ⊢
    by_cases same : sessionId = record.id
    · subst same
      rw [withTranscript, Dict.get?_set_self]
      simp
    · have different : names sessionId ≠ names record.id := names.injective.ne same
      rw [withTranscript, Dict.get?_set_ne _ _ same, ← kept]
      apply List.filter_congr
      intro message _
      by_cases own : message.sessionId = some (names sessionId)
      · simp [own, different]
      · simp [own]
  logs := mirrors.logs
  committed message member := mirrors.committed message (List.mem_of_mem_filter member)
  owned := mirrors.owned
  unnamed := (Dict.get?_set_ne _ _ (mirrors.named found)).trans mirrors.unnamed

/-- Another record for an existing run. -/
theorem update (mirrors : Mirrors names store database) (same : updated.id = ref) :
    Mirrors names (withUpdate store ref updated)
      (database.apply (.run (updated.rename names))) where
  sessions := mirrors.sessions
  runs := by
    rw [withUpdate, Dict.transport_set, ← mirrors.runs, ← same]
    rfl
  transcripts := mirrors.transcripts
  logs := mirrors.logs
  committed := mirrors.committed
  owned event member := by
    obtain ⟨other, owner, own, present⟩ := mirrors.owned event member
    by_cases changed : other = ref
    · exact ⟨other, updated, own, by rw [changed]; exact Dict.get?_set_self _ _ _⟩
    · exact ⟨other, owner, own, (Dict.get?_set_ne _ _ changed).trans present⟩
  unnamed := mirrors.unnamed

/-- One more event of an existing run. -/
theorem publish (mirrors : Mirrors names store database)
    (found : store.runs.get? ref = some run) (read : store.events.get? ref = some log)
    (same : event.runId = ref) :
    Mirrors names (withLog store ref (log ++ [event]))
      (database.apply (.event (event.rename names))) where
  sessions := mirrors.sessions
  runs := mirrors.runs
  transcripts := mirrors.transcripts
  logs other := by
    have kept := mirrors.logs other
    simp only [Database.eventLog, Database.apply, List.filter_append] at kept ⊢
    rw [kept]
    by_cases own : other = ref
    · subst own
      simp [eventLog, withLog, read, StreamEvent.rename, same]
    · have different : names ref ≠ names other := names.injective.ne (Ne.symm own)
      simp [eventLog, withLog, Dict.get?_set_ne _ _ own, StreamEvent.rename, same, different]
  committed := mirrors.committed
  owned other member := by
    rcases List.mem_append.mp member with old | new
    · exact mirrors.owned other old
    · rw [List.mem_singleton.mp new]
      exact ⟨ref, run, congrArg names same, found⟩
  unnamed := mirrors.unnamed

/-- A new run without events. -/
theorem reserve (mirrors : Mirrors names store database) (coherent : Coherent store)
    (absent : store.runs.get? run.id = none) :
    Mirrors names (withRun store run) (database.apply (.run (run.rename names))) where
  sessions := mirrors.sessions
  runs := by
    rw [withRun, Dict.transport_set, ← mirrors.runs]
    rfl
  transcripts := mirrors.transcripts
  logs other := by
    have kept := mirrors.logs other
    by_cases own : other = run.id
    · subst own
      have unread : store.events.get? run.id = none := by
        rw [← Option.not_isSome_iff_eq_none, coherent.logs, absent]
        simp
      rw [eventLog, unread] at kept
      rw [eventLog, withRun, Dict.get?_set_self]
      exact kept
    · rw [eventLog, withRun, Dict.get?_set_ne _ _ own]
      exact kept
  committed := mirrors.committed
  owned event member := by
    obtain ⟨other, owner, own, present⟩ := mirrors.owned event member
    have apart : other ≠ run.id := by
      rintro rfl
      rw [absent] at present
      contradiction
    exact ⟨other, owner, own, (Dict.get?_set_ne _ _ apart).trans present⟩
  unnamed := mirrors.unnamed

end Writes

section Pruning

/-- Which rows of one log a pruning deletes. -/
theorem expired_iff (mirrors : Mirrors names store database) (own : event.runId = names ref)
    (found : store.runs.get? ref = some run) (before : Time) :
    database.Expired before event ↔ event.createdAt < before ∧ run.Terminal := by
  have row : database.row event.runId = some (run.rename names) := by
    rw [own]
    exact (mirrors.runRow ref).trans (by rw [found]; rfl)
  simp only [Database.Expired, row, Option.some.injEq, exists_eq_left', AgentRun.rename,
    AgentRun.Terminal]

/-- The expired rows of one log are the events that the sweep removes from it. -/
theorem expired_log (mirrors : Mirrors names store database)
    (found : store.runs.get? ref = some run) (read : store.events.get? ref = some log)
    (before : Time) :
    (database.eventLog (names ref)).filter (fun event => database.Expired before event) =
      (expiredIn store before (ref, log)).map (·.rename names) := by
  have kept := mirrors.logs ref
  rw [eventLog, read, Option.getD_some] at kept
  have same : (database.eventLog (names ref)).filter
      (fun event => database.Expired before event) = (database.eventLog (names ref)).filter
        fun event => event.createdAt < before ∧ run.Terminal := by
    apply List.filter_congr
    intro event member
    have own := (List.mem_filter.mp member).2
    exact decide_eq_decide.mpr (mirrors.expired_iff (by simpa using own) found before)
  rw [same, kept, List.filter_map, expiredIn]
  congr 1
  apply List.filter_congr
  intro event _
  simp [found, StreamEvent.rename]

private theorem retained_log (mirrors : Mirrors names store database)
    (found : store.runs.get? ref = some run) (before : Time) :
    (database.without fun event => database.Expired before event).eventLog (names ref) =
      (database.eventLog (names ref)).filter fun event =>
        ¬ (event.createdAt < before ∧ run.Terminal) := by
  simp only [Database.eventLog, Database.without, List.filter_filter]
  apply List.filter_congr
  intro event _
  by_cases own : event.runId = names ref
  · simp [own, mirrors.expired_iff own found]
  · simp [own]

theorem prune_count (mirrors : Mirrors names store database) (coherent : Coherent store)
    (before : Time) : (pruneStreamEvents before store).1 =
      .ok (SQLAlchemyRuntimeStore.pruneStreamEvents before database).1 := by
  have present : ∀ entry ∈ store.events.entries, ∃ run, store.runs.get? entry.1 = some run ∧
      store.events.get? entry.1 = some entry.2 := by
    intro entry member
    have read := (Dict.mem_entries_iff _ _ _).mp member
    obtain ⟨run, found⟩ := coherent.runOf read
    exact ⟨run, found, read⟩
  have counted := pruneEach_count before store.events.entries store fun entry member => by
    obtain ⟨run, found, _⟩ := present entry member
    simp [found]
  have distinct : ((store.events.entries.map Prod.fst).map names).Nodup :=
    store.events.nodup.map names.injective
  have split := length_by_log (fun event : StreamEvent => event.runId) _ distinct
    (database.events.filter fun event => database.Expired before event) fun event member => by
      obtain ⟨ref, run, own, found⟩ := mirrors.owned event (List.mem_of_mem_filter member)
      obtain ⟨log, read⟩ := coherent.logOf found
      have listed := (Dict.mem_entries_iff _ _ _).mpr read
      rw [own]
      exact List.mem_map_of_mem (List.mem_map_of_mem listed)
  rw [pruneStreamEvents, Command.bind_apply, Command.read_apply]
  dsimp only
  rw [counted, SQLAlchemyRuntimeStore.pruneStreamEvents, ← split, List.length_flatMap,
    List.length_flatMap, List.map_map, List.map_map]
  congr 2
  apply List.map_congr_left
  intro entry member
  obtain ⟨run, found, read⟩ := present entry member
  have own := congrArg List.length (mirrors.expired_log found read before)
  rw [List.length_map] at own
  rw [← own, Database.eventLog, List.filter_filter, Function.comp, Function.comp,
    List.filter_filter]
  congr 1
  apply List.filter_congr
  intro event _
  exact Bool.and_comm _ _

theorem prune (mirrors : Mirrors names store database) (coherent : Coherent store)
    (pruned : Pruned store before (store.events.entries.map Prod.fst) after) :
    Mirrors names after (SQLAlchemyRuntimeStore.pruneStreamEvents before database).2 where
  sessions := by rw [pruned.sessions]; exact mirrors.sessions
  runs := by rw [pruned.runs]; exact mirrors.runs
  transcripts := by rw [pruned.messages]; exact mirrors.transcripts
  logs ref := by
    have kept := mirrors.logs ref
    cases read : store.events.get? ref with
    | none =>
      have skipped : ref ∉ store.events.entries.map Prod.fst := by
        intro listed
        obtain ⟨entry, member, rfl⟩ := List.mem_map.mp listed
        rw [(Dict.mem_entries_iff _ _ _).mp member] at read
        contradiction
      have bare : database.eventLog (names ref) = [] := by
        rw [kept, eventLog, read]
        rfl
      have fewer := database.without_sublist (fun event => database.Expired before event)
        (names ref)
      rw [bare] at fewer
      rw [eventLog, pruned.skipped skipped, read]
      exact List.sublist_nil.mp fewer
    | some log =>
      obtain ⟨run, found⟩ := coherent.runOf read
      have listed : ref ∈ store.events.entries.map Prod.fst :=
        List.mem_map_of_mem ((Dict.mem_entries_iff _ _ _).mpr read)
      rw [eventLog, read, Option.getD_some] at kept
      rw [SQLAlchemyRuntimeStore.pruneStreamEvents, mirrors.retained_log found, kept, eventLog,
        pruned.hit listed found read, Option.getD_some]
      by_cases terminal : run.Terminal
      · rw [if_pos terminal, List.filter_map]
        congr 1
        apply List.filter_congr
        intro event _
        simp [terminal, StreamEvent.rename]
      · simp [terminal]
  committed := mirrors.committed
  owned event member := by
    obtain ⟨ref, run, own, found⟩ := mirrors.owned event (List.mem_of_mem_filter member)
    exact ⟨ref, run, own, by rw [pruned.runs]; exact found⟩
  unnamed := by rw [pruned.sessions]; exact mirrors.unnamed

end Pruning

end Mirrors

end DayuAgent
