import DayuAgent.Database.Arbitration
import DayuAgent.Database.SessionRows

namespace DayuAgent

open Library SQLAlchemyRuntimeStore

/-- The locked rows as they were read, the uncommitted inserts, and the identifiers that
nobody else draws. -/
structure Holdings where
  runs : List AgentRun
  sessions : List SessionRecord
  inserted : List AgentRun
  drawnRuns : List String
  drawnSessions : List String

namespace Holdings

def nothing : Holdings := ⟨[], [], [], [], []⟩

def addRuns (held : Holdings) (runs : List AgentRun) : Holdings :=
  { held with runs := runs ++ held.runs }

def addSession (held : Holdings) (record : SessionRecord) : Holdings :=
  { held with sessions := record :: held.sessions }

def addInsert (held : Holdings) (run : AgentRun) : Holdings :=
  { held with inserted := run :: held.inserted }

end Holdings

/-- The committed rows, and all that were committed at some time. -/
structure Epoch where
  now : Database
  seen : Database → Prop

/-- The rows of an epoch are as the transaction knows them. -/
structure Holdings.Current (held : Holdings) (epoch : Epoch) : Prop where
  sound : epoch.now.Sound
  keyed : ∀ ref record, epoch.now.sessions.get? ref = some record → record.id = ref
  seen : epoch.seen epoch.now
  runs : ∀ run ∈ held.runs, epoch.now.row run.id = some run
  sessions : ∀ record ∈ held.sessions, epoch.now.sessions.get? record.id = some record
  inserted : ∀ run ∈ held.inserted, ∀ ref other, epoch.now.row ref = some other →
    ¬ Conflicts run other
  drawnRuns : ∀ ref ∈ held.drawnRuns, epoch.now.row ref = none
  drawnSessions : ∀ ref ∈ held.drawnSessions, epoch.now.sessions.get? ref = none

/-- What others may commit while the transaction holds its rows. -/
structure Holdings.Keeps (held : Holdings) (before after : Epoch) : Prop extends
    held.Current after where
  earlier : ∀ past, before.seen past → after.seen past
  pruned : ∀ run ∈ held.runs,
    (after.now.eventLog run.id).Sublist (before.now.eventLog run.id)
  logs : ∀ run ∈ held.runs, run.Active → after.now.eventLog run.id = before.now.eventLog run.id
  transcripts : ∀ record ∈ held.sessions,
    after.now.transcript record.id = before.now.transcript record.id
  unrevived : ∀ record ∈ held.sessions, ∀ ref run, after.now.row ref = some run →
    run.sessionId = record.id → run.Active → ∃ former, before.now.row ref = some former ∧
      former.sessionId = record.id ∧ former.Active
  lasting : ∀ sessionId, (before.now.sessions.get? sessionId).isSome →
    (after.now.sessions.get? sessionId).isSome
  carried : ∀ ref run, before.now.row ref = some run → ∃ later, after.now.row ref = some later ∧
    later.idempotencyKey = run.idempotencyKey

namespace Holdings

variable {held more : Holdings} {before after one two three epoch : Epoch}

theorem Current.refl (current : held.Current epoch) : held.Keeps epoch epoch where
  toCurrent := current
  earlier _ past := past
  pruned _ _ := List.Sublist.refl _
  logs _ _ _ := rfl
  transcripts _ _ := rfl
  unrevived _ _ _ run found same active := ⟨run, found, same, active⟩
  lasting _ present := present
  carried _ run found := ⟨run, found, rfl⟩

theorem Keeps.trans (first : held.Keeps one two) (second : held.Keeps two three) :
    held.Keeps one three where
  toCurrent := second.toCurrent
  earlier past seen := second.earlier past (first.earlier past seen)
  pruned run member := (second.pruned run member).trans (first.pruned run member)
  logs run member active := (second.logs run member active).trans (first.logs run member active)
  transcripts record member :=
    (second.transcripts record member).trans (first.transcripts record member)
  unrevived record member ref run found same active := by
    obtain ⟨between, present, own, still⟩ :=
      second.unrevived record member ref run found same active
    exact first.unrevived record member ref between present own still
  lasting sessionId present := second.lasting sessionId (first.lasting sessionId present)
  carried ref run found := by
    obtain ⟨between, present, same⟩ := first.carried ref run found
    obtain ⟨later, last, also⟩ := second.carried ref between present
    exact ⟨later, last, also.trans same⟩

/-- Whoever holds more relies on more. -/
structure Within (held more : Holdings) : Prop where
  runs : ∀ run ∈ held.runs, run ∈ more.runs
  sessions : ∀ record ∈ held.sessions, record ∈ more.sessions
  inserted : ∀ run ∈ held.inserted, run ∈ more.inserted
  drawnRuns : ∀ ref ∈ held.drawnRuns, ref ∈ more.drawnRuns
  drawnSessions : ∀ ref ∈ held.drawnSessions, ref ∈ more.drawnSessions

theorem Within.refl (held : Holdings) : held.Within held :=
  ⟨fun _ => id, fun _ => id, fun _ => id, fun _ => id, fun _ => id⟩

theorem Within.trans {most : Holdings} (first : held.Within more) (second : more.Within most) :
    held.Within most where
  runs run member := second.runs run (first.runs run member)
  sessions record member := second.sessions record (first.sessions record member)
  inserted run member := second.inserted run (first.inserted run member)
  drawnRuns ref member := second.drawnRuns ref (first.drawnRuns ref member)
  drawnSessions ref member := second.drawnSessions ref (first.drawnSessions ref member)

theorem within_addRuns (held : Holdings) (runs : List AgentRun) : held.Within (held.addRuns runs) :=
  ⟨fun _ => List.mem_append_right _, fun _ => id, fun _ => id, fun _ => id, fun _ => id⟩

theorem within_addSession (held : Holdings) (record : SessionRecord) :
    held.Within (held.addSession record) :=
  ⟨fun _ => id, fun _ => List.mem_cons_of_mem _, fun _ => id, fun _ => id, fun _ => id⟩

theorem within_addInsert (held : Holdings) (run : AgentRun) : held.Within (held.addInsert run) :=
  ⟨fun _ => id, fun _ => id, fun _ => List.mem_cons_of_mem _, fun _ => id, fun _ => id⟩

theorem Current.mono (current : more.Current epoch) (within : held.Within more) :
    held.Current epoch where
  sound := current.sound
  keyed := current.keyed
  seen := current.seen
  runs run member := current.runs run (within.runs run member)
  sessions record member := current.sessions record (within.sessions record member)
  inserted run member := current.inserted run (within.inserted run member)
  drawnRuns ref member := current.drawnRuns ref (within.drawnRuns ref member)
  drawnSessions ref member := current.drawnSessions ref (within.drawnSessions ref member)

theorem Keeps.mono (keeps : more.Keeps before after) (within : held.Within more) :
    held.Keeps before after where
  toCurrent := keeps.toCurrent.mono within
  earlier := keeps.earlier
  pruned run member := keeps.pruned run (within.runs run member)
  logs run member := keeps.logs run (within.runs run member)
  transcripts record member := keeps.transcripts record (within.sessions record member)
  unrevived record member := keeps.unrevived record (within.sessions record member)
  lasting := keeps.lasting
  carried := keeps.carried

theorem Current.addRuns {rows : List AgentRun} (current : held.Current epoch)
    (found : ∀ run ∈ rows, epoch.now.row run.id = some run) :
    (held.addRuns rows).Current epoch where
  sound := current.sound
  keyed := current.keyed
  seen := current.seen
  runs run member := (List.mem_append.mp member).elim (found run) (current.runs run)
  sessions := current.sessions
  inserted := current.inserted
  drawnRuns := current.drawnRuns
  drawnSessions := current.drawnSessions

theorem Current.addSession (current : held.Current epoch)
    (found : epoch.now.sessions.get? record.id = some record) :
    (held.addSession record).Current epoch where
  sound := current.sound
  keyed := current.keyed
  seen := current.seen
  runs := current.runs
  sessions := List.forall_mem_cons.mpr ⟨found, current.sessions⟩
  inserted := current.inserted
  drawnRuns := current.drawnRuns
  drawnSessions := current.drawnSessions

theorem Current.addInsert (current : held.Current epoch)
    (free : ∀ ref other, epoch.now.row ref = some other → ¬ Conflicts run other) :
    (held.addInsert run).Current epoch where
  sound := current.sound
  keyed := current.keyed
  seen := current.seen
  runs := current.runs
  sessions := current.sessions
  inserted := List.forall_mem_cons.mpr ⟨free, current.inserted⟩
  drawnRuns := current.drawnRuns
  drawnSessions := current.drawnSessions

end Holdings

/-- The record of a run after a write: the same run, and not revived. -/
structure AgentRun.Amends (updated run : AgentRun) : Prop where
  id : updated.id = run.id
  session : updated.sessionId = run.sessionId
  key : updated.idempotencyKey = run.idempotencyKey
  active : updated.Active → run.Active

theorem AgentRun.Amends.refl (run : AgentRun) : run.Amends run :=
  ⟨rfl, rfl, rfl, fun active => active⟩

theorem AgentRun.Amends.conflicts {run updated former : AgentRun} (amends : updated.Amends former)
    (conflicts : Conflicts run updated) : Conflicts run former := by
  rcases conflicts with same | ⟨keyed, same⟩ | ⟨same, active, also⟩
  · exact .inl (same.trans amends.id)
  · exact .inr (.inl ⟨keyed, same.trans amends.key⟩)
  · exact .inr (.inr ⟨same.trans amends.session, active, amends.active also⟩)

/-- The transaction holds the row of the session, or nobody else knows the session yet. -/
def Holdings.Owns (held : Holdings) (sessionId : String) : Prop :=
  sessionId ∈ held.drawnSessions ∨ ∃ record ∈ held.sessions, record.id = sessionId

/-- The change writes what the transaction holds. -/
def Change.Held (held : Holdings) : Change → Prop
  | .run updated => (∃ row ∈ held.runs, updated.Amends row) ∨
      updated ∈ held.inserted ∧ held.Owns updated.sessionId
  | .event appended => ∃ row ∈ held.runs, row.id = appended.runId
  | .session updated => held.Owns updated.id
  | .message added => ∃ record ∈ held.sessions, some record.id = added.sessionId
  | .deleteMessages sessionId => ∃ record ∈ held.sessions, record.id = sessionId

theorem Holdings.Owns.mono {held more : Holdings} (owns : held.Owns sessionId)
    (within : held.Within more) : more.Owns sessionId := by
  rcases owns with drawn | ⟨record, member, own⟩
  · exact .inl (within.drawnSessions _ drawn)
  · exact .inr ⟨record, within.sessions record member, own⟩

theorem Change.Held.mono {held more : Holdings} {change : Change} (owned : change.Held held)
    (within : held.Within more) : change.Held more := by
  cases change with
  | run updated =>
    rcases owned with ⟨row, member, amends⟩ | ⟨inserted, owns⟩
    · exact .inl ⟨row, within.runs row member, amends⟩
    · exact .inr ⟨within.inserted _ inserted, owns.mono within⟩
  | event appended =>
    obtain ⟨row, member, own⟩ := owned
    exact ⟨row, within.runs row member, own⟩
  | session updated => exact Holdings.Owns.mono owned within
  | message added | deleteMessages sessionId =>
    obtain ⟨record, member, own⟩ := owned
    exact ⟨record, within.sessions record member, own⟩

/-- The flushed changes are of held rows; there is one insert at most, into a session that
exists when it commits. -/
structure Holdings.Flushed (held : Holdings) (pending : List Change) : Prop where
  owned : ∀ change ∈ pending, change.Held held
  single : ∀ one ∈ held.inserted, ∀ two ∈ held.inserted, one = two
  opened : ∀ run ∈ held.inserted, run.sessionId ∈ held.drawnSessions →
    ∃ record, .session record ∈ pending ∧ record.id = run.sessionId

namespace Database

variable {database : Database} {changes : List Change}

/-- A run row is an old one or was flushed. -/
theorem applyAll_run (found : (database.applyAll changes).row ref = some run) :
    database.row ref = some run ∨ .run run ∈ changes ∧ run.id = ref := by
  rw [applyAll_row] at found
  induction changes using List.reverseRecOn with
  | nil => exact .inl found
  | append_singleton earlier change ih =>
    rw [List.foldl_append] at found
    have before : (earlier.foldl (Change.rewritten ref) (database.row ref) = some run) →
        database.row ref = some run ∨ .run run ∈ earlier ++ [change] ∧ run.id = ref := fun old =>
      (ih old).imp id fun flushed => ⟨List.mem_append_left _ flushed.1, flushed.2⟩
    cases change with
    | run written =>
      by_cases own : written.id = ref
      · simp only [List.foldl_cons, List.foldl_nil, Change.rewritten, own, ↓reduceIte] at found
        cases found
        exact .inr ⟨by simp, own⟩
      · simp only [List.foldl_cons, List.foldl_nil, Change.rewritten, own, ↓reduceIte] at found
        exact before found
    | session | message | deleteMessages | event => exact before found

theorem applyAll_row_some (changes : List Change) (found : database.row ref = some run) :
    ∃ later, (database.applyAll changes).row ref = some later := by
  rw [applyAll_row, found]
  clear found
  induction changes generalizing run with
  | nil => exact ⟨run, rfl⟩
  | cons change rest ih =>
    cases change with
    | run written =>
      by_cases own : written.id = ref
      · simp only [List.foldl_cons, Change.rewritten, own, ↓reduceIte]
        exact ih
      · simp only [List.foldl_cons, Change.rewritten, own, ↓reduceIte]
        exact ih
    | session | message | deleteMessages | event => exact ih

theorem applyAll_opened (changes : List Change) (present : (database.sessions.get? ref).isSome) :
    ((database.applyAll changes).sessions.get? ref).isSome := by
  induction changes generalizing database with
  | nil => exact present
  | cons change rest ih =>
    refine ih ?_
    cases change with
    | session written =>
      simp only [Database.apply, Dict.get?_set]
      split
      · rfl
      · exact present
    | run | message | deleteMessages | event => exact present

private theorem applyAll_flushed_session (flushed : .session record ∈ changes) :
    ((database.applyAll changes).sessions.get? record.id).isSome := by
  induction changes generalizing database with
  | nil => exact absurd flushed (List.not_mem_nil)
  | cons change rest ih =>
    rcases List.mem_cons.mp flushed with same | later
    · refine applyAll_opened rest ?_
      simp [← same, Database.apply]
    · exact ih later

end Database

namespace Holdings

section Commits

variable {held other : Holdings} {epoch after : Epoch} {pending : List Change}

/-- Where a row comes from that a committing transaction leaves. -/
theorem Flushed.origin (current : held.Current epoch) (flushed : held.Flushed pending)
    (found : (epoch.now.applyAll pending).row ref = some run) :
    (∃ former, epoch.now.row ref = some former ∧ run.Amends former) ∨
      run ∈ held.inserted ∧ run.id = ref ∧ held.Owns run.sessionId := by
  rcases Database.applyAll_run found with old | ⟨written, own⟩
  · exact .inl ⟨run, old, .refl run⟩
  · rcases flushed.owned _ written with ⟨row, member, amends⟩ | ⟨inserted, owns⟩
    · refine .inl ⟨row, ?_, amends⟩
      rw [← own, amends.id]
      exact current.runs row member
    · exact .inr ⟨inserted, own, owns⟩

/-- Inserted rows meet no committed one. -/
theorem Current.fresh (current : held.Current epoch) (inserted : run ∈ held.inserted) :
    epoch.now.row run.id = none := by
  cases found : epoch.now.row run.id with
  | none => rfl
  | some former =>
    have same : former.id = run.id := current.sound.runId found
    exact (current.inserted run inserted run.id former found (.inl same.symm)).elim

theorem Flushed.carries (current : held.Current epoch) (flushed : held.Flushed pending)
    (found : epoch.now.row ref = some run) : ∃ later,
      (epoch.now.applyAll pending).row ref = some later ∧
        later.idempotencyKey = run.idempotencyKey := by
  obtain ⟨later, present⟩ := Database.applyAll_row_some pending found
  refine ⟨later, present, ?_⟩
  rcases flushed.origin current present with ⟨former, before, amends⟩ | ⟨inserted, rfl, _⟩
  · rw [found] at before
    cases before
    exact amends.key
  · rw [current.fresh inserted] at found
    contradiction

/-- Committing the changes of held rows keeps what the database promises. -/
theorem Flushed.sound (current : held.Current epoch) (flushed : held.Flushed pending) :
    (epoch.now.applyAll pending).Sound where
  runId {ref run} found := by
    rcases flushed.origin current found with ⟨former, before, amends⟩ | ⟨_, own, _⟩
    · exact amends.id.trans (current.sound.runId before)
    · exact own
  keys {ref run second other key} found also keyed again := by
    rcases flushed.origin current found with ⟨former, before, amends⟩ | ⟨inserted, own, _⟩ <;>
      rcases flushed.origin current also with ⟨old, earlier, changed⟩ | ⟨insertion, mine, _⟩
    · exact current.sound.keys before earlier (amends.key.symm.trans keyed)
        (changed.key.symm.trans again)
    · refine (current.inserted other insertion ref former before (.inr (.inl ⟨?_, ?_⟩))).elim
      · rw [again]
        rfl
      · rw [again, ← amends.key, keyed]
    · refine (current.inserted run inserted second old earlier (.inr (.inl ⟨?_, ?_⟩))).elim
      · rw [keyed]
        rfl
      · rw [keyed, ← changed.key, again]
    · rw [← own, ← mine, flushed.single run inserted other insertion]
  oneActive {ref run second other} found also same active again := by
    rcases flushed.origin current found with ⟨former, before, amends⟩ | ⟨inserted, own, _⟩ <;>
      rcases flushed.origin current also with ⟨old, earlier, changed⟩ | ⟨insertion, mine, _⟩
    · refine current.sound.oneActive before earlier ?_ (amends.active active) (changed.active again)
      rw [← amends.session, same, changed.session]
    · refine (current.inserted other insertion ref former before (.inr (.inr ⟨?_, again, ?_⟩))).elim
      · rw [← amends.session, same]
      · exact amends.active active
    · refine (current.inserted run inserted second old earlier (.inr (.inr ⟨?_, active, ?_⟩))).elim
      · rw [same, changed.session]
      · exact changed.active again
    · rw [← own, ← mine, flushed.single run inserted other insertion]
  runSession {ref run} found := by
    rcases flushed.origin current found with ⟨former, before, amends⟩ | ⟨inserted, _, owns⟩
    · rw [amends.session]
      exact Database.applyAll_opened _ (current.sound.runSession before)
    · rcases owns with drawn | ⟨record, member, own⟩
      · obtain ⟨record, opened, own⟩ := flushed.opened run inserted drawn
        rw [← own]
        exact Database.applyAll_flushed_session opened
      · rw [← own]
        refine Database.applyAll_opened _ ?_
        rw [current.sessions record member]
        rfl

/-- Two transactions that hold different rows. -/
structure Apart (held other : Holdings) : Prop where
  runs : ∀ run ∈ held.runs, ∀ row ∈ other.runs, row.id ≠ run.id
  sessions : ∀ record ∈ held.sessions, ∀ row ∈ other.sessions, row.id ≠ record.id
  inserted : ∀ run ∈ held.inserted, ∀ row ∈ other.inserted, ¬ Conflicts run row
  drawnRuns : ∀ ref ∈ held.drawnRuns, ∀ row ∈ other.inserted, row.id ≠ ref
  drawnSessions : ∀ ref ∈ held.drawnSessions, ref ∉ other.drawnSessions

/-- Changes of another's rows touch no held run. -/
theorem Apart.untouched (apart : held.Apart other) (current : held.Current epoch)
    (foreign : other.Current epoch) (flushed : other.Flushed pending) (member : run ∈ held.runs) :
    ∀ change ∈ pending, ¬ change.Touches run.id := by
  intro change among touches
  have owned := flushed.owned change among
  cases change with
  | run updated =>
    rcases owned with ⟨row, held, amends⟩ | ⟨inserted, _⟩
    · exact apart.runs run member row held (amends.id.symm.trans touches)
    · have fresh := foreign.fresh inserted
      rw [show updated.id = run.id from touches, current.runs run member] at fresh
      contradiction
  | event appended =>
    obtain ⟨row, held, own⟩ := owned
    exact apart.runs run member row held (own.trans touches)
  | session | message | deleteMessages => exact touches

/-- A session that the other transaction does not own stays as it is. -/
theorem Flushed.unconcerned (flushed : other.Flushed pending) (foreign : ¬ other.Owns sessionId) :
    ∀ change ∈ pending, ¬ change.Concerns sessionId := by
  intro change among concerns
  have owned := flushed.owned change among
  cases change with
  | session updated =>
    have own : updated.id = sessionId := concerns
    exact foreign (own ▸ owned)
  | message added =>
    obtain ⟨record, member, own⟩ := owned
    exact foreign (.inr ⟨record, member, Option.some.inj (own.trans concerns)⟩)
  | deleteMessages cleared =>
    obtain ⟨record, member, own⟩ := owned
    exact foreign (.inr ⟨record, member, own.trans concerns⟩)
  | run | event => exact concerns

private theorem Apart.disowned (apart : held.Apart other) (current : held.Current epoch)
    (foreign : other.Current epoch) (member : record ∈ held.sessions) :
    ¬ other.Owns record.id := by
  rintro (drawn | ⟨row, held, own⟩)
  · have absent := foreign.drawnSessions _ drawn
    rw [current.sessions record member] at absent
    contradiction
  · exact apart.sessions record member row held own

private theorem Apart.undrawn (apart : held.Apart other) (current : held.Current epoch)
    (foreign : other.Current epoch) (drawn : ref ∈ held.drawnSessions) : ¬ other.Owns ref := by
  rintro (also | ⟨row, held, rfl⟩)
  · exact apart.drawnSessions ref drawn also
  · have absent := current.drawnSessions _ drawn
    rw [foreign.sessions row held] at absent
    contradiction

/-- The commit of another transaction keeps what this one relies on. -/
theorem Apart.keeps (apart : held.Apart other) (current : held.Current epoch)
    (foreign : other.Current epoch) (flushed : other.Flushed pending)
    (committed : after.now = epoch.now.applyAll pending)
    (grows : ∀ past, epoch.seen past → after.seen past) (seen : after.seen after.now) :
    held.Keeps epoch after where
  sound := by
    rw [committed]
    exact flushed.sound foreign
  keyed := by
    rw [committed]
    exact applyAll_keyed current.keyed
  seen := seen
  earlier := grows
  runs run member := by
    rw [committed, Database.applyAll_row,
      rewritten_untouched _ (apart.untouched current foreign flushed member)]
    exact current.runs run member
  sessions record member := by
    rw [committed,
      (applyAll_unconcerned _ (flushed.unconcerned (apart.disowned current foreign member))).1]
    exact current.sessions record member
  inserted run member ref row found conflicts := by
    rw [committed] at found
    rcases flushed.origin foreign found with ⟨former, before, amends⟩ | ⟨inserted, _, _⟩
    · exact current.inserted run member ref former before (amends.conflicts conflicts)
    · exact apart.inserted run member row inserted conflicts
  drawnRuns ref drawn := by
    rw [committed]
    cases found : (epoch.now.applyAll pending).row ref with
    | none => rfl
    | some row =>
      rcases flushed.origin foreign found with ⟨former, before, _⟩ | ⟨inserted, own, _⟩
      · rw [current.drawnRuns ref drawn] at before
        contradiction
      · exact (apart.drawnRuns ref drawn row inserted own).elim
  drawnSessions ref drawn := by
    rw [committed,
      (applyAll_unconcerned _ (flushed.unconcerned (apart.undrawn current foreign drawn))).1]
    exact current.drawnSessions ref drawn
  pruned run member := by
    rw [committed, Database.applyAll_eventLog,
      published_untouched (apart.untouched current foreign flushed member), List.append_nil]
  logs run member _ := by
    rw [committed, Database.applyAll_eventLog,
      published_untouched (apart.untouched current foreign flushed member), List.append_nil]
  transcripts record member := by
    rw [committed]
    exact (applyAll_unconcerned _
      (flushed.unconcerned (apart.disowned current foreign member))).2
  unrevived record member ref run found same active := by
    rw [committed] at found
    rcases flushed.origin foreign found with ⟨former, before, amends⟩ | ⟨_, _, owns⟩
    · exact ⟨former, before, amends.session.symm.trans same, amends.active active⟩
    · exact (apart.disowned current foreign member (same ▸ owns)).elim
  lasting sessionId present := by
    rw [committed]
    exact Database.applyAll_opened _ present
  carried ref run found := by
    rw [committed]
    exact flushed.carries foreign found

end Commits

section Others

variable {held : Holdings} {epoch after : Epoch}

/-- A new session under an identifier that nobody has drawn. -/
theorem Current.opened (current : held.Current epoch)
    (absent : epoch.now.sessions.get? record.id = none) (other : record.id ∉ held.drawnSessions)
    (committed : after.now = epoch.now.apply (.session record))
    (grows : ∀ past, epoch.seen past → after.seen past) (seen : after.seen after.now) :
    held.Keeps epoch after := by
  have spared : ∀ ref, ref ≠ record.id →
      after.now.sessions.get? ref = epoch.now.sessions.get? ref := by
    intro ref different
    rw [committed]
    exact Dict.get?_set_ne _ _ different
  have lasting : ∀ ref, (epoch.now.sessions.get? ref).isSome →
      (after.now.sessions.get? ref).isSome := by
    intro ref present
    rw [spared ref ?_]
    · exact present
    · rintro rfl
      simp [absent] at present
  have runs : after.now.runs = epoch.now.runs := by rw [committed]; rfl
  have rows : ∀ ref, after.now.row ref = epoch.now.row ref := fun ref => by
    rw [Database.row, runs, Database.row]
  have logs : ∀ ref, after.now.eventLog ref = epoch.now.eventLog ref := fun ref => by
    rw [committed]
    rfl
  have keyed : ∀ ref row, after.now.sessions.get? ref = some row → row.id = ref := by
    rw [committed]
    exact @applyAll_keyed epoch.now [.session record] current.keyed
  refine ⟨⟨current.sound.grow runs lasting, keyed, seen, ?_, ?_, ?_, ?_, ?_⟩, grows, ?_, ?_, ?_,
    ?_, lasting, ?_⟩
  · exact fun run member => (rows _).trans (current.runs run member)
  · intro row member
    have found := current.sessions row member
    refine (spared _ ?_).trans found
    intro same
    rw [same, absent] at found
    contradiction
  · exact fun run member ref row found =>
      current.inserted run member ref row ((rows ref).symm.trans found)
  · exact fun ref drawn => (rows ref).trans (current.drawnRuns ref drawn)
  · intro ref drawn
    refine (spared ref ?_).trans (current.drawnSessions ref drawn)
    rintro rfl
    exact other drawn
  · exact fun run _ => (logs run.id) ▸ List.Sublist.refl _
  · exact fun run _ _ => logs run.id
  · intro row _
    rw [committed]
    rfl
  · exact fun row _ ref run found same active =>
      ⟨run, (rows ref).symm.trans found, same, active⟩
  · exact fun ref run found => ⟨run, (rows ref).trans found, rfl⟩

/-- A pruning of expired events. -/
theorem Current.pruning (current : held.Current epoch) (removed : StreamEvent → Bool)
    (expired : ∀ event ∈ epoch.now.events, removed event = true → epoch.now.Expired time event)
    (committed : after.now = epoch.now.without removed)
    (grows : ∀ past, epoch.seen past → after.seen past) (seen : after.seen after.now) :
    held.Keeps epoch after := by
  have runs : after.now.runs = epoch.now.runs := by rw [committed]; rfl
  have sessions : after.now.sessions = epoch.now.sessions := by rw [committed]; rfl
  have rows : ∀ ref, after.now.row ref = epoch.now.row ref := fun ref => by
    rw [Database.row, runs, Database.row]
  refine ⟨⟨current.sound.grow runs fun ref present => ?_, ?_, seen, ?_, ?_, ?_, ?_, ?_⟩, grows,
    ?_, ?_, ?_, ?_, ?_, ?_⟩
  · rwa [sessions]
  · rw [sessions]
    exact current.keyed
  · exact fun run member => (rows _).trans (current.runs run member)
  · rw [sessions]
    exact current.sessions
  · exact fun run member ref row found =>
      current.inserted run member ref row ((rows ref).symm.trans found)
  · exact fun ref drawn => (rows ref).trans (current.drawnRuns ref drawn)
  · rw [sessions]
    exact current.drawnSessions
  · intro run _
    rw [committed]
    exact epoch.now.without_sublist removed run.id
  · intro run member active
    rw [committed]
    simp only [Database.eventLog, Database.without, List.filter_filter]
    apply List.filter_congr
    intro event listed
    by_cases own : event.runId = run.id
    · have kept : removed event = false := by
        by_contra gone
        obtain ⟨_, row, found, terminal⟩ :=
          expired event listed (Bool.eq_true_of_not_eq_false gone)
        rw [own, current.runs run member] at found
        cases found
        exact (not_active_iff_terminal _).mpr terminal active
      simp [own, kept]
    · simp [own]
  · intro row _
    rw [committed]
    rfl
  · exact fun row _ ref run found same active =>
      ⟨run, (rows ref).symm.trans found, same, active⟩
  · rw [sessions]
    exact fun _ present => present
  · exact fun ref run found => ⟨run, (rows ref).trans found, rfl⟩

end Others

end Holdings

end DayuAgent
