import DayuAgent.Database.Reserving

namespace DayuAgent

open Library SQLAlchemyRuntimeStore

/-- An entry of a history in which everything is done at once. -/
inductive SerialEntry where
  | call (process : Nat) (value : Reply)
  | opened (record : SessionRecord)
  | pruned (before : Time) (removed : StreamEvent → Bool)

def SerialEntry.caller : SerialEntry → Option Nat
  | call process _ => some process
  | opened _ | pruned _ _ => none

/-- What an entry does to the committed rows; what a call draws is new there. -/
inductive Performs (calls : Workload) (before : Database) : SerialEntry → Database → Prop where
  | call (undrawn : ∀ ref ∈ ((calls process).1.draws (calls process).2).drawnSessions,
        before.sessions.get? ref = none)
      (ends : (calls process).1.Outcome (calls process).2 before (.committed value after)) :
      Performs calls before (.call process value) after
  | opened (absent : before.sessions.get? record.id = none) (first : record.version = 1) :
      Performs calls before (.opened record) (before.apply (.session record))
  | pruned (expired : ∀ event ∈ before.events, removed event = true → before.Expired time event) :
      Performs calls before (.pruned time removed) (before.without removed)

/-- No identifier is drawn twice. -/
structure Workload.Fresh (calls : Workload) : Prop where
  sessions : ∀ sessionId, calls.DrawsOnce sessionId
  runs : ref ∈ ((calls one).1.draws (calls one).2).drawnRuns →
    ref ∈ ((calls two).1.draws (calls two).2).drawnRuns → one = two

/-- The entries are those of calls that have not ended. -/
def Ongoing (cluster : Cluster Reply) (entries : List SerialEntry) : Prop :=
  ∀ process value, .call process value ∈ entries →
    ∀ result, (cluster.processes process).activity ≠ .finished result

/-- A single reservation draws for itself. -/
theorem fresh_of_one {calls : Workload} (reserver : Nat) (alone : ∀ process,
    process = reserver ∨ ∀ request, (calls process).1 ≠ .reserveRun request) : calls.Fresh where
  sessions sessionId one two first second := by
    obtain ⟨_, ⟨request, same, _⟩, _⟩ := first
    obtain ⟨_, ⟨other, also, _⟩, _⟩ := second
    rw [(alone one).resolve_right fun none => none request same,
      (alone two).resolve_right fun none => none other also]
  runs {one ref two} first second := by
    have drawn : ∀ {process}, ref ∈ ((calls process).1.draws (calls process).2).drawnRuns →
        process = reserver := by
      intro process member
      refine (alone process).resolve_right fun none => ?_
      generalize (calls process).1 = call at none member
      cases call with
      | reserveRun request => exact none request rfl
      | _ => cases member
    rw [drawn first, drawn second]

/-- The answer of a call is that of its entry, or the one it has over a committed state
without changing anything there. -/
def Explained (calls : Workload) (history : List SerialEntry) (seen : Database → Prop)
    (process : Nat) : Except PyException Reply → Prop
  | .ok value => .call process value ∈ history ∨ ∃ past, seen past ∧
      (calls process).1.Outcome (calls process).2 past (.committed value past)
  | .error error => ∃ past, seen past ∧
      (calls process).1.Outcome (calls process).2 past (.failed error)

/-- The process has locked, inserted and drawn what it holds. -/
structure Possesses (calls : Workload) (cluster : Cluster Reply) (process : Nat) (held : Holdings) :
    Prop where
  runs : ∀ run ∈ held.runs, cluster.locks (.run run.id) = some process
  sessions : ∀ record ∈ held.sessions, cluster.locks (.session record.id) = some process
  inserted : ∀ run ∈ held.inserted, (process, run) ∈ cluster.inserting ∧ run.id ∈ held.drawnRuns
  drawnRuns : ∀ ref ∈ held.drawnRuns,
    ref ∈ ((calls process).1.draws (calls process).2).drawnRuns
  drawnSessions : ∀ ref ∈ held.drawnSessions,
    ref ∈ ((calls process).1.draws (calls process).2).drawnSessions

section Invariant

variable {calls : Workload} {history : List SerialEntry} {seen : Nat → Database → Prop}
  {before after cluster : Cluster Reply} {process actor : Nat}

/-- What one process knows of the committed rows. -/
def epochOf (seen : Nat → Database → Prop) (cluster : Cluster Reply) (process : Nat) : Epoch :=
  ⟨cluster.database, seen process⟩

/-- The process holds what it needs to end as over a committed state. -/
structure Proceeds (calls : Workload) (seen : Nat → Database → Prop) (cluster : Cluster Reply)
    (process : Nat) (transaction : Txn Reply) (held : Holdings) (rescued : Epoch → Prop) :
    Prop where
  possesses : Possesses calls cluster process held
  draws : ((calls process).1.draws (calls process).2).Within held
  current : held.Current (epochOf seen cluster process)
  flushed : held.Flushed (cluster.processes process).pending
  serial : transaction.Serial ((calls process).1.Outcome (calls process).2) rescued held
    (epochOf seen cluster process) (cluster.processes process).pending
  recovers : (rescued = (calls process).1.Rejected ∧
      (cluster.processes process).recovery = (calls process).1.recovery (calls process).2) ∨
    rescued = fun _ => False

structure Attends (calls : Workload) (history : List SerialEntry) (seen : Nat → Database → Prop)
    (cluster : Cluster Reply) (process : Nat) : Prop where
  running : (cluster.processes process).activity = .running transaction →
    ∃ held rescued, Proceeds calls seen cluster process transaction held rescued
  finished : (cluster.processes process).activity = .finished result →
    Explained calls history (seen process) process result

/-- The history so far, and what every process may rely on. -/
structure Serialized (calls : Workload) (history : List SerialEntry) (seen : Nat → Database → Prop)
    (cluster : Cluster Reply) : Prop where
  sound : cluster.database.Sound
  keyed : ∀ ref record, cluster.database.sessions.get? ref = some record → record.id = ref
  sees : ∀ process, seen process cluster.database
  apart : (one, run) ∈ cluster.inserting → (two, other) ∈ cluster.inserting → one ≠ two →
    ¬ Conflicts run other
  attends : ∀ process, Attends calls history seen cluster process
  entries : ∀ process value, .call process value ∈ history →
    (cluster.processes process).activity = .finished (.ok value)
  once : (history.filterMap SerialEntry.caller).Nodup

theorem Explained.mono {result : Except PyException Reply} {more : List SerialEntry}
    {wider : Database → Prop} (explained : Explained calls history (seen process) process result)
    (grows : ∀ entry ∈ history, entry ∈ more) (wide : ∀ past, seen process past → wider past) :
    Explained calls more wider process result := by
  cases result with
  | ok value =>
    refine explained.imp (grows _) ?_
    exact fun ⟨past, known, ends⟩ => ⟨past, wide past known, ends⟩
  | error error =>
    obtain ⟨past, known, ends⟩ := explained
    exact ⟨past, wide past known, ends⟩

theorem Possesses.kept {held : Holdings} (possesses : Possesses calls before process held)
    (locks : ∀ row, before.locks row = some process → after.locks row = some process)
    (inserting : ∀ run, (process, run) ∈ before.inserting → (process, run) ∈ after.inserting) :
    Possesses calls after process held where
  runs run member := locks _ (possesses.runs run member)
  sessions record member := locks _ (possesses.sessions record member)
  inserted run member := (possesses.inserted run member).imp (inserting run) id
  drawnRuns := possesses.drawnRuns
  drawnSessions := possesses.drawnSessions

theorem mem_drawnSessions {call : LockingCall} {ambient : Ambient} :
    ref ∈ (call.draws ambient).drawnSessions ↔
      ∃ record, call.Creates ambient record ∧ record.id = ref := by
  constructor
  · intro member
    cases call with
    | reserveRun request =>
      cases named : request.sessionId with
      | none =>
        refine ⟨_, ⟨request, rfl, named, rfl⟩, ?_⟩
        simp only [LockingCall.draws, drawnBy, named, List.mem_singleton] at member
        rw [member]
        simp [resolvedSessionId, named, InMemorySessionStore.chosenId,
          InMemorySessionStore.implicitSession]
      | some sessionId => simp [LockingCall.draws, drawnBy, named] at member
    | _ => cases member
  · rintro ⟨record, ⟨request, rfl, named, rfl⟩, rfl⟩
    simp [LockingCall.draws, drawnBy, named, resolvedSessionId, InMemorySessionStore.chosenId,
      InMemorySessionStore.implicitSession]

/-- Two processes hold different rows. -/
theorem Serialized.holdings_apart {held other : Holdings}
    (serialized : Serialized calls history seen cluster) (fresh : calls.Fresh)
    (different : one ≠ two) (first : Possesses calls cluster one held)
    (second : Possesses calls cluster two other) : held.Apart other where
  runs run member row also same := by
    have taken := second.runs row also
    rw [same, first.runs run member] at taken
    exact different (Option.some.inj taken)
  sessions record member row also same := by
    have taken := second.sessions row also
    rw [same, first.sessions record member] at taken
    exact different (Option.some.inj taken)
  inserted run member row also :=
    serialized.apart (first.inserted run member).1 (second.inserted row also).1 different
  drawnRuns ref drawn row also same := by
    have own := second.drawnRuns _ (second.inserted row also).2
    rw [same] at own
    exact different (fresh.runs (first.drawnRuns ref drawn) own)
  drawnSessions ref drawn also :=
    different (fresh.sessions ref one two
      (mem_drawnSessions.mp (first.drawnSessions ref drawn))
      (mem_drawnSessions.mp (second.drawnSessions ref also)))

/-- Knowing more of the past changes nothing. -/
theorem Proceeds.kept {held : Holdings} {wider : Nat → Database → Prop}
    (proceeds : Proceeds calls seen before process transaction held rescued)
    (same : after.processes process = before.processes process)
    (locks : ∀ row, before.locks row = some process → after.locks row = some process)
    (inserting : ∀ run, (process, run) ∈ before.inserting → (process, run) ∈ after.inserting)
    (keeps : held.Keeps (epochOf seen before process) (epochOf wider after process)) :
    Proceeds calls wider after process transaction held rescued where
  possesses := proceeds.possesses.kept locks inserting
  draws := proceeds.draws
  current := keeps.toCurrent
  flushed := same ▸ proceeds.flushed
  serial := by
    rw [same]
    exact proceeds.serial.kept keeps
  recovers := by
    rw [same]
    exact proceeds.recovers

/-- Another process acts. -/
theorem Attends.kept {more : List SerialEntry} {wider : Nat → Database → Prop}
    (attends : Attends calls history seen before process)
    (same : after.processes process = before.processes process)
    (locks : ∀ row, before.locks row = some process → after.locks row = some process)
    (inserting : ∀ run, (process, run) ∈ before.inserting → (process, run) ∈ after.inserting)
    (grows : ∀ entry ∈ history, entry ∈ more)
    (wide : ∀ past, seen process past → wider process past)
    (keeps : ∀ held : Holdings, held.Current (epochOf seen before process) →
      Possesses calls before process held →
        held.Keeps (epochOf seen before process) (epochOf wider after process)) :
    Attends calls more wider after process where
  running active := by
    rw [same] at active
    obtain ⟨held, rescued, proceeds⟩ := attends.running active
    exact ⟨held, rescued, proceeds.kept same locks inserting
      (keeps held proceeds.current proceeds.possesses)⟩
  finished active := by
    rw [same] at active
    exact (attends.finished active).mono grows wide

/-- A statement that changes no committed row. -/
theorem Serialized.act (serialized : Serialized calls history seen before)
    (unfinished : ∀ result, (before.processes actor).activity ≠ .finished result)
    (database : after.database = before.database)
    (others : ∀ process, process ≠ actor → after.processes process = before.processes process)
    (locks : ∀ row process, process ≠ actor → before.locks row = some process →
      after.locks row = some process)
    (inserting : ∀ process run, process ≠ actor → (process, run) ∈ before.inserting →
      (process, run) ∈ after.inserting)
    (apart : ∀ one two run other, (one, run) ∈ after.inserting → (two, other) ∈ after.inserting →
      one ≠ two → ¬ Conflicts run other)
    (own : Attends calls history seen after actor) : Serialized calls history seen after where
  sound := by
    rw [database]
    exact serialized.sound
  keyed := by
    rw [database]
    exact serialized.keyed
  sees := by
    rw [database]
    exact serialized.sees
  apart := apart _ _ _ _
  attends process := by
    by_cases mine : process = actor
    · exact mine ▸ own
    · refine (serialized.attends process).kept (others process mine)
        (fun row => locks row process mine) (fun run => inserting process run mine)
        (fun _ => id) (fun _ => id) fun held current _ => ?_
      rw [epochOf, epochOf, database]
      exact current.refl
  entries process value member := by
    have done := serialized.entries process value member
    have other : process ≠ actor := by
      rintro rfl
      exact unfinished _ done
    rw [others process other]
    exact done
  once := serialized.once

/-- The process goes on with the rest of its transaction, holding more rows. -/
theorem Serialized.proceed {rows : List Row} {inserting : List (Nat × AgentRun)}
    (serialized : Serialized calls history seen before)
    (active : (before.processes actor).activity = .running transaction)
    (available : ∀ row ∈ rows, before.Available actor row)
    (kept : ∀ process run, (process, run) ∈ before.inserting → (process, run) ∈ inserting)
    (apart : ∀ one two run other, (one, run) ∈ inserting → (two, other) ∈ inserting →
      one ≠ two → ¬ Conflicts run other)
    (own : ∃ held rescued, Proceeds calls seen
      (before.proceed actor rows flushed rest inserting) actor rest held rescued) :
    Serialized calls history seen (before.proceed actor rows flushed rest inserting) := by
  refine serialized.act (fun result done => ?_) rfl
    (fun process other => Function.update_of_ne other _ _) (fun row process other taken => ?_)
    (fun process run _ => kept process run) apart ⟨fun running => ?_, fun done => ?_⟩
  · rw [active] at done
    cases done
  · have free : row ∉ rows := by
      intro listed
      rcases available row listed with none | mine
      · rw [none] at taken
        cases taken
      · rw [mine] at taken
        exact other (Option.some.inj taken).symm
    exact (if_neg free).trans taken
  · simp only [Cluster.proceed, Function.update_self, Activity.running.injEq] at running
    exact running ▸ own
  · simp only [Cluster.proceed, Function.update_self] at done
    cases done

theorem Serialized.widen {wider : Nat → Database → Prop}
    (serialized : Serialized calls history seen cluster)
    (wide : ∀ process past, seen process past → wider process past) :
    Serialized calls history wider cluster where
  sound := serialized.sound
  keyed := serialized.keyed
  sees process := wide process _ (serialized.sees process)
  apart := serialized.apart
  attends process := by
    refine (serialized.attends process).kept rfl (fun _ => id) (fun _ => id) (fun _ => id)
      (wide process) fun held current _ => ?_
    have same := current.refl
    exact { same with
      seen := wide process _ (serialized.sees process)
      earlier := wide process }
  entries := serialized.entries
  once := serialized.once

/-- The transaction ends without a change. -/
theorem Serialized.release (serialized : Serialized calls history seen before)
    (active : (before.processes actor).activity = .running transaction) (ended : Process Reply)
    (own : Attends calls history seen (before.release actor ended) actor) :
    Serialized calls history seen (before.release actor ended) := by
  refine serialized.act (fun result done => ?_) rfl
    (fun process other => Function.update_of_ne other _ _) (fun row process other taken => ?_)
    (fun process run other entry => ?_) (fun one two run also first second => ?_) own
  · rw [active] at done
    cases done
  · simp [Cluster.release, taken, other]
  · exact List.mem_filter.mpr ⟨entry, by simpa using other⟩
  · exact serialized.apart (List.mem_filter.mp first).1 (List.mem_filter.mp second).1

theorem Serialized.rollback (serialized : Serialized calls history seen before)
    (active : (before.processes actor).activity = .running transaction)
    (explained : Explained calls history (seen actor) actor (.error error)) :
    Serialized calls history seen (before.rollback actor error) := by
  refine serialized.release active _ ⟨fun running => ?_, fun done => ?_⟩
  · simp [Cluster.release] at running
  · simp only [Cluster.release, Function.update_self, Activity.finished.injEq] at done
    exact done ▸ explained

theorem draws_bare (call : LockingCall) (ambient : Ambient) :
    (call.draws ambient).runs = [] ∧ (call.draws ambient).sessions = [] ∧
      (call.draws ambient).inserted = [] := by cases call <;> exact ⟨rfl, rfl, rfl⟩

theorem possesses_draws (calls : Workload) (cluster : Cluster Reply) (process : Nat) :
    Possesses calls cluster process ((calls process).1.draws (calls process).2) := by
  obtain ⟨runs, sessions, inserted⟩ := draws_bare (calls process).1 (calls process).2
  exact ⟨by simp [runs], by simp [sessions], by simp [inserted], fun _ => id, fun _ => id⟩

theorem draws_flushed (call : LockingCall) (ambient : Ambient) :
    (call.draws ambient).Flushed [] := by
  obtain ⟨_, _, inserted⟩ := draws_bare call ambient
  exact ⟨by simp, by simp [inserted], by simp [inserted]⟩

theorem possesses_nothing (process : Nat) : Possesses calls cluster process .nothing := by
  constructor <;> exact fun _ member => absurd member List.not_mem_nil

theorem Serialized.blank (serialized : Serialized calls history seen cluster) (process : Nat) :
    Holdings.nothing.Current (epochOf seen cluster process) := by
  refine ⟨serialized.sound, serialized.keyed, serialized.sees process, ?_, ?_, ?_, ?_, ?_⟩ <;>
    exact fun _ member => absurd member List.not_mem_nil

/-- A rejected insert hands over to the recovery. -/
theorem Serialized.violated {held : Holdings} (serialized : Serialized calls history seen before)
    (active : (before.processes actor).activity = .running transaction)
    (proceeds : Proceeds calls seen before actor transaction held rescued)
    (rejected : rescued (epochOf seen before actor)) :
    Serialized calls history seen (before.violated actor) := by
  rcases proceeds.recovers with ⟨rfl, recovers⟩ | rfl
  · obtain ⟨recovered, own, serial⟩ := LockingCall.recovery_serial (calls actor).2 rejected
    simp only [Cluster.violated, recovers, own]
    refine serialized.release active _ ⟨fun running => ?_, fun done => ?_⟩
    · simp only [Cluster.release, Function.update_self, Activity.running.injEq] at running
      subst running
      refine ⟨_, fun _ => False, possesses_draws _ _ _, .refl _,
        proceeds.current.mono proceeds.draws, ?_, ?_, .inr rfl⟩
      · simp only [Cluster.release, Function.update_self]
        exact draws_flushed _ _
      · simp only [Cluster.release, Function.update_self]
        exact serial
    · simp [Cluster.release] at done
  · exact rejected.elim

/-- No action but its own statements concerns what a process holds. -/
theorem Serialized.keeps {held : Holdings} (serialized : Serialized calls history seen before)
    (fresh : calls.Fresh) (opens : ∀ sessionId, action.Opens calls sessionId)
    (taken : Serves before action after) (other : action ≠ .statement process)
    (current : held.Current (epochOf seen before process))
    (possesses : Possesses calls before process held) :
    held.Keeps (epochOf seen before process)
      ⟨after.database, fun past => seen process past ∨ past = after.database⟩ := by
  cases action with
  | statement actor =>
    have mine : process ≠ actor := by
      rintro rfl
      exact other rfl
    rcases next_database taken with same | ⟨value, active, rfl⟩
    · have kept := current.refl
      rw [same]
      exact { kept with seen := .inr rfl, earlier := fun _ => .inl }
    · obtain ⟨own, rescued, proceeds⟩ := (serialized.attends actor).running active
      have apart := serialized.holdings_apart fresh mine possesses proceeds.possesses
      refine apart.keeps current ?_ proceeds.flushed rfl (fun _ => .inl) (.inr rfl)
      exact { proceeds.current with seen := serialized.sees process }
  | createSession record =>
    have absent := serve_createSession_fresh taken
    obtain rfl := serve_createSession taken
    refine current.opened absent (fun drawn => ?_) rfl (fun _ => .inl) (.inr rfl)
    exact (opens record.id).2 rfl process (mem_drawnSessions.mp (possesses.drawnSessions _ drawn))
  | prune time removed =>
    obtain ⟨expired, rfl⟩ := serve_prune taken
    exact current.pruning removed expired rfl (fun _ => .inl) (.inr rfl)

/-- A commit is an entry of the history, unless it changes nothing. -/
theorem Serialized.commit (serialized : Serialized calls history seen before)
    (fresh : calls.Fresh)
    (active : (before.processes actor).activity = .running (.done (.ok value))) :
    ∃ more, Run (Performs calls) before.database more (before.view actor) ∧
      Ongoing before more ∧ Serialized calls (history ++ more)
        (fun process past => seen process past ∨ past = before.view actor)
        (before.commit actor value) := by
  obtain ⟨held, rescued, proceeds⟩ := (serialized.attends actor).running active
  have unlisted : ∀ other, .call actor other ∉ history := by
    intro other member
    have done := serialized.entries actor other member
    rw [active] at done
    cases done
  have explained : ∃ more, Run (Performs calls) before.database more (before.view actor) ∧
      Explained calls (history ++ more)
        (fun past => seen actor past ∨ past = before.view actor) actor (.ok value) ∧
      (∀ process other, .call process other ∈ more → process = actor ∧ other = value) ∧
      (more.filterMap SerialEntry.caller = [] ∨ more.filterMap SerialEntry.caller = [actor]) := by
    rcases proceeds.serial _ proceeds.current.refl with ends | ⟨none, past, known, ends⟩
    · have undrawn := (proceeds.current.mono proceeds.draws).drawnSessions
      refine ⟨[.call actor value], .single (.call undrawn ends), .inl (by simp), ?_, .inr rfl⟩
      intro process other member
      cases List.mem_singleton.mp member
      exact ⟨rfl, rfl⟩
    · refine ⟨[], ?_, .inr ⟨past, .inl known, ends⟩, by simp, .inl rfl⟩
      have same : before.view actor = before.database := by
        rw [Cluster.view, none]
        rfl
      rw [same]
      exact .nil
  obtain ⟨more, run, told, only, listed⟩ := explained
  have ongoing : Ongoing before more := by
    intro process other member result done
    rw [(only process other member).1, active] at done
    cases done
  refine ⟨more, run, ongoing, proceeds.flushed.sound proceeds.current,
    applyAll_keyed serialized.keyed, fun _ => .inr rfl, fun first second => ?_,
    fun process => ?_, fun process other member => ?_, ?_⟩
  · exact serialized.apart (List.mem_filter.mp first).1 (List.mem_filter.mp second).1
  · by_cases mine : process = actor
    · subst mine
      refine ⟨fun running => ?_, fun done => ?_⟩
      · simp [Cluster.commit, Cluster.release] at running
      · simp only [Cluster.commit, Cluster.release, Function.update_self,
          Activity.finished.injEq] at done
        exact done ▸ told
    · refine (serialized.attends process).kept (Function.update_of_ne mine _ _)
        (fun row taken => ?_) (fun run entry => ?_) (fun _ => List.mem_append_left _)
        (fun _ => .inl) fun other current possesses => ?_
      · simp [Cluster.commit, Cluster.release, taken, mine]
      · exact List.mem_filter.mpr ⟨entry, by simpa using mine⟩
      · have opens : ∀ sessionId, (ServiceAction.statement actor).Opens calls sessionId :=
          fun _ => trivial
        refine serialized.keeps fresh opens (Cluster.next_ok active) (fun same => ?_) current
          possesses
        exact mine (ServiceAction.statement.inj same).symm
  · rcases List.mem_append.mp member with old | new
    · have other : process ≠ actor := by
        rintro rfl
        exact unlisted _ old
      have done := serialized.entries _ _ old
      exact (congrArg Process.activity (Function.update_of_ne other _ _)).trans done
    · obtain ⟨rfl, rfl⟩ := only process other new
      simp [Cluster.commit, Cluster.release]
  · rw [List.filterMap_append]
    rcases listed with none | one
    · rw [none, List.append_nil]
      exact serialized.once
    · rw [one]
      refine List.nodup_append.mpr ⟨serialized.once, List.nodup_singleton _, ?_⟩
      intro process member other also same
      obtain ⟨entry, among, caller⟩ := List.mem_filterMap.mp member
      rw [List.mem_singleton.mp also] at same
      cases entry with
      | call process value =>
        cases caller
        exact unlisted value (same ▸ among)
      | opened | pruned => cases caller

/-- What the process holds after it has gone on. -/
theorem Proceeds.next {held gained : Holdings} {rows : List Row} {rest : Txn Reply}
    {written : List Change} {inserting : List (Nat × AgentRun)}
    (proceeds : Proceeds calls seen before actor transaction held rescued)
    (possesses : Possesses calls (before.proceed actor rows written rest inserting) actor gained)
    (within : held.Within gained) (current : gained.Current (epochOf seen before actor))
    (owned : gained.Flushed ((before.processes actor).pending ++ written))
    (serial : rest.Serial ((calls actor).1.Outcome (calls actor).2) rescued gained
      (epochOf seen before actor) ((before.processes actor).pending ++ written)) :
    Proceeds calls seen (before.proceed actor rows written rest inserting) actor rest gained
      rescued where
  possesses := possesses
  draws := proceeds.draws.trans within
  current := current
  flushed := by simpa only [Cluster.proceed, Function.update_self] using owned
  serial := by
    simp only [Cluster.proceed, Function.update_self]
    exact serial
  recovers := by
    simp only [Cluster.proceed, Function.update_self]
    exact proceeds.recovers

/-- The locks of a process that goes on. -/
theorem Possesses.proceed {held : Holdings} {rows : List Row} {rest : Txn Reply}
    {inserting : List (Nat × AgentRun)} (possesses : Possesses calls before actor held)
    (kept : ∀ process run, (process, run) ∈ before.inserting → (process, run) ∈ inserting) :
    Possesses calls (before.proceed actor rows flushed rest inserting) actor held := by
  refine possesses.kept (fun row taken => ?_) (fun run => kept actor run)
  simp [Cluster.proceed, taken]

theorem Holdings.Flushed.addRuns {held : Holdings} (flushed : held.Flushed pending)
    (runs : List AgentRun) : (held.addRuns runs).Flushed pending :=
  ⟨fun change member => (flushed.owned change member).mono (held.within_addRuns runs),
    flushed.single, flushed.opened⟩

theorem Holdings.Flushed.addSession {held : Holdings} (flushed : held.Flushed pending)
    (record : SessionRecord) : (held.addSession record).Flushed pending :=
  ⟨fun change member => (flushed.owned change member).mono (held.within_addSession record),
    flushed.single, flushed.opened⟩

/-- The flushed changes of other rows do not show in the row of a session. -/
theorem view_session {cluster : Cluster Reply}
    (clean : ∀ change ∈ (cluster.processes process).pending, ¬ change.Concerns ref) :
    (cluster.view process).sessions.get? ref = cluster.database.sessions.get? ref :=
  (applyAll_unconcerned _ clean).1

private theorem applyAll_untouched {changes : List Change} (database : Database)
    (clean : ∀ change ∈ changes, ∀ ref, ¬ change.Touches ref) :
    (database.applyAll changes).runs = database.runs := by
  induction changes generalizing database with
  | nil => rfl
  | cons change rest ih =>
    refine (ih _ fun other member => clean other (List.mem_cons_of_mem _ member)).trans ?_
    cases change with
    | run written => exact (clean _ List.mem_cons_self written.id rfl).elim
    | session | message | deleteMessages | event => rfl

theorem view_find {cluster : Cluster Reply} {query : RunQuery}
    (clean : ∀ change ∈ (cluster.processes process).pending, ∀ ref, ¬ change.Touches ref) :
    query.find (cluster.view process) = query.find cluster.database :=
  find_congr (applyAll_untouched _ clean) query

section Proceeding

variable {held : Holdings} {rest : Txn Reply}
  (serialized : Serialized calls history seen before)
  (active : (before.processes actor).activity = .running transaction)
  (proceeds : Proceeds calls seen before actor transaction held rescued)

include serialized active proceeds

/-- A process that locks more run rows. -/
theorem Serialized.lock {runs : List AgentRun}
    (found : ∀ run ∈ runs, before.database.row run.id = some run)
    (available : ∀ run ∈ runs, before.Available actor (.run run.id))
    (serial : rest.Serial ((calls actor).1.Outcome (calls actor).2) rescued (held.addRuns runs)
      (epochOf seen before actor) (before.processes actor).pending) :
    Serialized calls history seen (before.proceed actor (runs.map fun run => .run run.id) [] rest
      before.inserting) := by
  refine serialized.proceed active ?_ (fun _ _ => id) (fun _ _ _ _ => serialized.apart)
    ⟨held.addRuns runs, rescued, proceeds.next ?_ (held.within_addRuns runs) ?_ ?_ ?_⟩
  · intro row listed
    obtain ⟨run, member, rfl⟩ := List.mem_map.mp listed
    exact available run member
  · have still : Possesses calls (before.proceed actor (runs.map fun run => .run run.id) [] rest
        before.inserting) actor held := proceeds.possesses.proceed fun _ _ => id
    refine { still with runs := fun run member => ?_ }
    rcases List.mem_append.mp member with new | old
    · have listed : Row.run run.id ∈ runs.map fun run => Row.run run.id :=
        List.mem_map.mpr ⟨run, new, rfl⟩
      exact if_pos listed
    · exact still.runs run old
  · exact proceeds.current.addRuns found
  · rw [List.append_nil]
    exact proceeds.flushed.addRuns runs
  · rw [List.append_nil]
    exact serial

/-- An answer without a lock. -/
theorem Serialized.advance
    (serial : rest.Serial ((calls actor).1.Outcome (calls actor).2) rescued held
      (epochOf seen before actor) (before.processes actor).pending) :
    Serialized calls history seen (before.advance actor rest) := by
  rw [proceed_advance]
  refine serialized.proceed active (by simp) (fun _ _ => id) (fun _ _ _ _ => serialized.apart)
    ⟨held, rescued, proceeds.next (proceeds.possesses.proceed fun _ _ => id) (.refl held)
      proceeds.current ?_ ?_⟩
  · rw [List.append_nil]
    exact proceeds.flushed
  · rw [List.append_nil]
    exact serial

theorem Serialized.lockSession {record : SessionRecord}
    (found : before.database.sessions.get? record.id = some record)
    (available : before.Available actor (.session record.id))
    (serial : rest.Serial ((calls actor).1.Outcome (calls actor).2) rescued
      (held.addSession record) (epochOf seen before actor) (before.processes actor).pending) :
    Serialized calls history seen
      ((before.acquire actor (.session record.id)).advance actor rest) := by
  rw [proceed_acquire]
  refine serialized.proceed active (by simpa using available) (fun _ _ => id)
    (fun _ _ _ _ => serialized.apart) ⟨held.addSession record, rescued,
      proceeds.next ?_ (held.within_addSession record) ?_ ?_ ?_⟩
  · have still : Possesses calls (before.proceed actor [.session record.id] [] rest
        before.inserting) actor held := proceeds.possesses.proceed fun _ _ => id
    refine { still with sessions := List.forall_mem_cons.mpr ⟨?_, still.sessions⟩ }
    exact if_pos List.mem_cons_self
  · exact proceeds.current.addSession found
  · rw [List.append_nil]
    exact proceeds.flushed.addSession record
  · rw [List.append_nil]
    exact serial

private theorem Serialized.write
    (owned : change.Held held)
    (serial : rest.Serial ((calls actor).1.Outcome (calls actor).2) rescued held
      (epochOf seen before actor) ((before.processes actor).pending ++ [change])) :
    Serialized calls history seen
      (before.proceed actor [] [change] rest before.inserting) := by
  refine serialized.proceed active (by simp) (fun _ _ => id) (fun _ _ _ _ => serialized.apart)
    ⟨held, rescued, proceeds.next (proceeds.possesses.proceed fun _ _ => id) (.refl held)
      proceeds.current ⟨fun other member => ?_, proceeds.flushed.single,
        fun run inserted drawn => ?_⟩ serial⟩
  · rcases List.mem_append.mp member with old | new
    · exact proceeds.flushed.owned other old
    · exact List.mem_singleton.mp new ▸ owned
  · obtain ⟨record, opened, own⟩ := proceeds.flushed.opened run inserted drawn
    exact ⟨record, List.mem_append_left _ opened, own⟩

private theorem Serialized.insert {run : AgentRun}
    (alone : held.inserted = [] ∧ run.id ∈ held.drawnRuns ∧ held.Owns run.sessionId ∧
      (run.sessionId ∈ held.drawnSessions → ∃ record,
        .session record ∈ (before.processes actor).pending ∧ record.id = run.sessionId))
    (free : ∀ ref other, before.database.row ref = some other → ¬ Conflicts run other)
    (waits : ∀ process other, (process, other) ∈ before.inserting → process ≠ actor →
      ¬ Conflicts run other)
    (serial : rest.Serial ((calls actor).1.Outcome (calls actor).2) rescued (held.addInsert run)
      (epochOf seen before actor) ((before.processes actor).pending ++ [.run run])) :
    Serialized calls history seen
      (before.proceed actor [] [.run run] rest ((actor, run) :: before.inserting)) := by
  obtain ⟨none, drawn, owns, opened⟩ := alone
  refine serialized.proceed active (by simp) (fun _ _ => List.mem_cons_of_mem _) ?_
    ⟨held.addInsert run, rescued, proceeds.next ?_ (held.within_addInsert run)
      (proceeds.current.addInsert free) ?_ serial⟩
  · intro one two first second entry also different
    rcases List.mem_cons.mp entry with mine | old
    · cases mine
      rcases List.mem_cons.mp also with same | other
      · cases same
        exact (different rfl).elim
      · exact waits two second other (Ne.symm different)
    · rcases List.mem_cons.mp also with same | other
      · cases same
        exact fun conflicts => waits one first old different (conflicts_symm conflicts)
      · exact serialized.apart old other different
  · have still : Possesses calls (before.proceed actor [] [.run run] rest
        ((actor, run) :: before.inserting)) actor held :=
      proceeds.possesses.proceed fun _ _ => List.mem_cons_of_mem _
    refine { still with inserted := List.forall_mem_cons.mpr ⟨⟨?_, drawn⟩, still.inserted⟩ }
    exact List.mem_cons_self
  · have within := held.within_addInsert run
    refine ⟨fun change member => ?_, fun one first two second => ?_, fun other member own => ?_⟩
    · rcases List.mem_append.mp member with old | new
      · exact (proceeds.flushed.owned change old).mono within
      · rw [List.mem_singleton.mp new]
        exact .inr ⟨List.mem_cons_self, owns.mono within⟩
    · simp only [Holdings.addInsert, none, List.mem_singleton] at first second
      rw [first, second]
    · simp only [Holdings.addInsert, none, List.mem_singleton] at member own
      subst member
      obtain ⟨record, flushed, mine⟩ := opened own
      exact ⟨record, List.mem_append_left _ flushed, mine⟩

private theorem Serialized.lockRun {record : AgentRun}
    (found : RunQuery.find query before.database = some record)
    (available : before.Available actor (.run record.id))
    (serial : rest.Serial ((calls actor).1.Outcome (calls actor).2) rescued
      (held.addRuns [record]) (epochOf seen before actor) (before.processes actor).pending) :
    Serialized calls history seen ((before.acquire actor (.run record.id)).advance actor rest) := by
  have row : before.database.row record.id = some record :=
    RunQuery.find_row (fun present => serialized.sound.runId present) found
  rw [proceed_acquire]
  exact serialized.lock active proceeds (List.forall_mem_singleton.mpr row)
    (List.forall_mem_singleton.mpr available) serial

/-- The rows that `SKIP LOCKED` finds are distinct and locked at once. -/
theorem Serialized.lockSkipping {rest : List AgentRun → Txn Reply}
    (blank : (before.processes actor).pending = [])
    (serial : ∀ runs : List AgentRun, (runs.map fun run => run.id).Nodup →
      (∀ run ∈ runs, before.database.row run.id = some run ∧ selected run = true) →
        (rest runs).Serial ((calls actor).1.Outcome (calls actor).2) rescued (held.addRuns runs)
          (epochOf seen before actor) (before.processes actor).pending) :
    Serialized calls history seen
      ((before.acquireAll actor (before.unlocked actor selected)).advance actor
        (rest (before.unlocked actor selected))) := by
  have same : before.view actor = before.database := by
    rw [Cluster.view, blank]
    rfl
  have rows : ∀ run ∈ before.unlocked actor selected,
      before.database.row run.id = some run ∧ selected run = true := by
    intro run member
    obtain ⟨listed, chosen, _⟩ := mem_unlocked member
    rw [same] at listed
    obtain ⟨ref, found⟩ := (Dict.mem_values_iff _ run).mp listed
    have own : run.id = ref := serialized.sound.runId found
    exact ⟨own.symm ▸ found, chosen⟩
  have distinct : ((before.unlocked actor selected).map fun run => run.id).Nodup := by
    have all := before.database.runs.nodup_values fun found => serialized.sound.runId found
    rw [Cluster.unlocked, same]
    exact all.sublist (List.filter_sublist.map _)
  rw [proceed_acquireAll]
  exact serialized.lock active proceeds (fun run member => (rows run member).1)
    (fun run member => (mem_unlocked member).2.2) (serial _ distinct rows)

end Proceeding

/-- One statement of one call extends the history by its commit, if it is one. -/
theorem Serialized.statement (serialized : Serialized calls history seen before)
    (fresh : calls.Fresh) (taken : before.next actor = some after) :
    ∃ more, Run (Performs calls) before.database more after.database ∧ Ongoing before more ∧
      Serialized calls (history ++ more)
        (fun process past => seen process past ∨ past = after.database) after := by
  have quiet : after.database = before.database → Serialized calls history seen after →
      ∃ more, Run (Performs calls) before.database more after.database ∧ Ongoing before more ∧
        Serialized calls (history ++ more)
          (fun process past => seen process past ∨ past = after.database) after := by
    intro same kept
    refine ⟨[], same ▸ .nil, by simp [Ongoing], ?_⟩
    rw [List.append_nil]
    exact kept.widen fun _ _ => .inl
  obtain ⟨transaction, active, executed⟩ := next_executed taken
  obtain ⟨held, rescued, proceeds⟩ := (serialized.attends actor).running active
  have serial := proceeds.serial
  have here := proceeds.current.refl
  cases executed with
  | commit => exact serialized.commit fresh active
  | rollback => exact quiet rfl (serialized.rollback active serial)
  | noSession absent =>
    rw [view_session serial.1] at absent
    exact quiet rfl (serialized.advance active proceeds ((serial.2 _ here).1 absent))
  | session found available =>
    rw [view_session serial.1] at found
    obtain rfl := serialized.keyed _ _ found
    exact quiet rfl (serialized.lockSession active proceeds found available
      ((serial.2 _ here).2 _ found))
  | noRun absent =>
    rw [view_find serial.1] at absent
    exact quiet rfl (serialized.advance active proceeds ((serial.2 _ here).1 absent))
  | run found available =>
    rw [view_find serial.1] at found
    exact quiet rfl (serialized.lockRun active proceeds found available
      ((serial.2 _ here).2 _ found))
  | skipping =>
    exact quiet rfl (serialized.lockSkipping active proceeds serial.1 (serial.2 _ here))
  | row => exact quiet rfl (serialized.advance active proceeds (serial _ here))
  | count => exact quiet rfl (serialized.advance active proceeds (serial _ here))
  | violated conflict =>
    obtain ⟨other, listed, conflicts⟩ := conflict
    obtain ⟨ref, found⟩ := (Dict.mem_values_iff _ other).mp listed
    exact quiet (violated_database before actor) (serialized.violated active proceeds
      ((serial.2 _ here).1 ⟨ref, other, found, conflicts⟩))
  | insert unused alone =>
    have free : ∀ ref other, before.database.row ref = some other → ¬ Conflicts _ other :=
      fun ref other found => unused other ((Dict.mem_values_iff _ other).mpr ⟨ref, found⟩)
    refine quiet rfl ?_
    rw [proceed_insert]
    exact serialized.insert active proceeds serial.1 free (fun process other => alone _)
      ((serial.2 _ here).2 free)
  | write =>
    refine quiet rfl ?_
    rw [proceed_write]
    exact serialized.write active proceeds serial.1 serial.2

/-- A step of the service outside the calls. -/
theorem Serialized.outside (serialized : Serialized calls history seen before)
    (fresh : calls.Fresh) (opens : ∀ sessionId, action.Opens calls sessionId)
    (taken : Serves before action after) (foreign : ∀ process, action ≠ .statement process)
    (same : after = { before with database := after.database })
    (performs : Performs calls before.database entry after.database)
    (uncalled : entry.caller = none) :
    ∃ more, Run (Performs calls) before.database more after.database ∧ Ongoing before more ∧
      Serialized calls (history ++ more)
        (fun process past => seen process past ∨ past = after.database) after := by
  have kept := serialized.keeps fresh opens taken (foreign 0) (serialized.blank 0)
    (possesses_nothing 0)
  have processes : after.processes = before.processes := by rw [same]
  have locks : after.locks = before.locks := by rw [same]
  have inserting : after.inserting = before.inserting := by rw [same]
  have ongoing : Ongoing before [entry] := by
    intro process value member
    rw [← List.mem_singleton.mp member] at uncalled
    cases uncalled
  refine ⟨[entry], .single performs, ongoing, kept.sound, kept.keyed, fun _ => .inr rfl, ?_,
    fun process => ?_, fun process value member => ?_, ?_⟩
  · rw [inserting]
    exact serialized.apart
  · refine (serialized.attends process).kept (congrFun processes process) (fun row taken => ?_)
      (fun run entry => ?_) (fun _ => List.mem_append_left _) (fun _ => .inl)
      fun held current possesses =>
        serialized.keeps fresh opens taken (foreign process) current possesses
    · rw [locks]
      exact taken
    · rw [inserting]
      exact entry
  · rcases List.mem_append.mp member with old | new
    · rw [processes]
      exact serialized.entries process value old
    · rw [← List.mem_singleton.mp new] at uncalled
      cases uncalled
  · rw [List.filterMap_append, List.filterMap_cons, uncalled, List.filterMap_nil, List.append_nil]
    exact serialized.once

/-- A call that has ended stays so. -/
theorem run_finished (run : Run Serves before actions after)
    (done : (before.processes process).activity = .finished result) :
    (after.processes process).activity = .finished result := by
  induction run with
  | nil => exact done
  | @snoc actions middle action after earlier taken ended =>
    cases action with
    | statement actor =>
      have mine : process ≠ actor := by
        rintro rfl
        simp [Serves, Cluster.serve, Cluster.next, ended] at taken
      cases next_moved taken with
      | proceeds | commits | rolls =>
        exact (congrArg Process.activity (Function.update_of_ne mine _ _)).trans ended
    | createSession record =>
      rw [serve_createSession taken]
      exact ended
    | prune time removed =>
      rw [(serve_prune taken).2]
      exact ended

private theorem Serialized.serves (serialized : Serialized calls history seen before)
    (fresh : calls.Fresh) (opens : ∀ sessionId, action.Opens calls sessionId)
    (taken : Serves before action after) :
    ∃ more, Run (Performs calls) before.database more after.database ∧ Ongoing before more ∧
      Serialized calls (history ++ more)
        (fun process past => seen process past ∨ past = after.database) after := by
  cases action with
  | statement actor => exact serialized.statement fresh taken
  | createSession record =>
    have absent := serve_createSession_fresh taken
    obtain same := serve_createSession taken
    exact serialized.outside fresh opens taken (by simp) (by rw [same])
      (by rw [same]; exact .opened absent (opens record.id).1) rfl
  | prune time removed =>
    obtain ⟨expired, same⟩ := serve_prune taken
    exact serialized.outside fresh opens taken (by simp) (by rw [same])
      (by rw [same]; exact .pruned expired) rfl

theorem Serialized.run (serialized : Serialized calls history seen before) (fresh : calls.Fresh)
    (run : Run Serves before actions after)
    (opens : ∀ action ∈ actions, ∀ sessionId, action.Opens calls sessionId) :
    ∃ more, Run (Performs calls) before.database more after.database ∧ Ongoing before more ∧
      Serialized calls (history ++ more) (fun process past => seen process past ∨
        Run.Passes (Performs calls) before.database more past after.database) after := by
  induction run with
  | nil =>
    refine ⟨[], .nil, by simp [Ongoing], ?_⟩
    rw [List.append_nil]
    exact serialized.widen fun _ _ => .inl
  | snoc earlier last ih =>
    obtain ⟨more, reached, begun, middle⟩ :=
      ih fun action member => opens action (List.mem_append_left _ member)
    obtain ⟨rest, next, ongoing, final⟩ := middle.serves fresh (opens _ (by simp)) last
    refine ⟨more ++ rest, reached.append next, fun process value member result done => ?_, ?_⟩
    · rcases List.mem_append.mp member with old | new
      · exact begun process value old result done
      · exact ongoing process value new result (run_finished earlier done)
    rw [← List.append_assoc]
    refine final.widen fun process past known => ?_
    rcases known with (old | passes) | rfl
    · exact .inl old
    · exact .inr (passes.append next)
    · exact .inr (Run.passes_final (reached.append next))

/-- The call has not begun. -/
structure Unstarted (calls : Workload) (cluster : Cluster Reply) (process : Nat) : Prop where
  same : cluster.processes process = (calls process).1.process (calls process).2
  undrawn : ((calls process).1.draws (calls process).2).Current
    ⟨cluster.database, fun past => past = cluster.database⟩

/-- Others act before a call begins. -/
theorem Unstarted.serves (unstarted : Unstarted calls before process)
    (serialized : Serialized calls history seen before) (fresh : calls.Fresh)
    (opens : ∀ sessionId, action.Opens calls sessionId) (taken : Serves before action after)
    (other : action ≠ .statement process) : Unstarted calls after process where
  same := by
    refine Eq.trans ?_ unstarted.same
    cases action with
    | statement actor =>
      have mine : process ≠ actor := by
        rintro rfl
        exact other rfl
      cases next_moved taken with
      | proceeds | commits | rolls => exact Function.update_of_ne mine _ _
    | createSession record => rw [serve_createSession taken]
    | prune time removed => rw [(serve_prune taken).2]
  undrawn := by
    have current : ((calls process).1.draws (calls process).2).Current
        (epochOf seen before process) :=
      { unstarted.undrawn with seen := serialized.sees process }
    have kept := serialized.keeps fresh opens taken other current (possesses_draws _ _ _)
    exact { kept.toCurrent with seen := rfl }

/-- A call that begins knows nothing but the committed rows. -/
theorem Unstarted.attends {wider : Nat → Database → Prop}
    (unstarted : Unstarted calls cluster process) (sees : wider process cluster.database) :
    Attends calls history wider cluster process where
  running active := by
    have current : ((calls process).1.draws (calls process).2).Current
        (epochOf wider cluster process) := { unstarted.undrawn with seen := sees }
    rw [unstarted.same] at active
    cases active
    refine ⟨_, _, possesses_draws _ _ _, .refl _, current, ?_, ?_, .inl ⟨rfl, ?_⟩⟩
    · rw [unstarted.same]
      exact draws_flushed _ _
    · rw [unstarted.same]
      exact LockingCall.transaction_serial _ _ current
    · rw [unstarted.same]
      rfl
  finished active := by
    rw [unstarted.same] at active
    cases active

theorem start_unstarted (calls : Workload) (process : Nat) :
    Unstarted calls calls.start process := by
  obtain ⟨runs, sessions, inserted⟩ := draws_bare (calls process).1 (calls process).2
  refine ⟨rfl, empty_sound, fun ref record found => ?_, rfl, by simp [runs], by simp [sessions],
    by simp [inserted], fun _ _ => rfl, fun _ _ => rfl⟩
  cases found

theorem start_serialized (calls : Workload) :
    Serialized calls [] (fun _ past => past = .empty) calls.start where
  sound := empty_sound
  keyed ref record found := by cases found
  sees _ := rfl
  apart first := by cases first
  attends process := (start_unstarted calls process).attends rfl
  entries _ _ member := by cases member
  once := List.nodup_nil

/-- The calls that begin now know nothing of the past. -/
theorem Serialized.restart {began : Nat → Prop}
    (serialized : Serialized calls history seen cluster)
    (unstarted : ∀ process, began process → Unstarted calls cluster process) :
    Serialized calls history (fun process past =>
      began process ∧ past = cluster.database ∨ ¬ began process ∧ seen process past) cluster := by
  have sees : ∀ process, began process ∧ cluster.database = cluster.database ∨
      ¬ began process ∧ seen process cluster.database := by
    intro process
    by_cases begins : began process
    · exact .inl ⟨begins, rfl⟩
    · exact .inr ⟨begins, serialized.sees process⟩
  refine { serialized with sees, attends := fun process => ?_ }
  by_cases begins : began process
  · exact (unstarted process begins).attends (sees process)
  · refine (serialized.attends process).kept rfl (fun _ => id) (fun _ => id) (fun _ => id)
      (fun past known => .inr ⟨begins, known⟩) fun held current _ => ?_
    have same := current.refl
    exact { same with
      seen := sees process
      earlier := fun past known => .inr ⟨begins, known⟩ }

theorem run_unstarted (fresh : calls.Fresh) (run : Run Serves calls.start actions cluster)
    (opens : ∀ action ∈ actions, ∀ sessionId, action.Opens calls sessionId)
    (idle : ∀ action ∈ actions, action ≠ .statement process) :
    Unstarted calls cluster process := by
  induction run with
  | nil => exact start_unstarted calls process
  | snoc earlier last ih =>
    have before : ∀ action ∈ _, ∀ sessionId, ServiceAction.Opens calls sessionId action :=
      fun action member => opens action (List.mem_append_left _ member)
    obtain ⟨_, _, _, serialized⟩ := (start_serialized calls).run fresh earlier before
    exact (ih before fun action member => idle action (List.mem_append_left _ member)).serves
      serialized fresh (opens _ (by simp)) last (idle _ (by simp))

end Invariant

/-- From one state of a service to a later one: what the calls have done, one after the other,
and how each call that began in between was answered. -/
structure HasHistory (calls : Workload) (began : Nat → Prop) (before after : Cluster Reply)
    (history : List SerialEntry) : Prop where
  serial : Run (Performs calls) before.database history after.database
  once : (history.filterMap SerialEntry.caller).Nodup
  ongoing : Ongoing before history
  entries : ∀ process value, .call process value ∈ history →
    (after.processes process).activity = .finished (.ok value)
  succeeded : ∀ process value, began process →
    (after.processes process).activity = .finished (.ok value) →
    .call process value ∈ history ∨ ∃ past,
      Run.Passes (Performs calls) before.database history past after.database ∧
        (calls process).1.Outcome (calls process).2 past (.committed value past)
  failed : ∀ process error, began process →
    (after.processes process).activity = .finished (.error error) → ∃ past,
      Run.Passes (Performs calls) before.database history past after.database ∧
        (calls process).1.ending (calls process).2 past = .failed error

/-- From a state of the service on, the calls that have not begun there have a history of
their own. -/
theorem Serialized.hasHistory {calls : Workload} {began : Nat → Prop} {old : List SerialEntry}
    {seen : Nat → Database → Prop} {before after : Cluster Reply} {actions : List ServiceAction}
    (serialized : Serialized calls old seen before)
    (unstarted : ∀ process, began process → Unstarted calls before process)
    (fresh : calls.Fresh) (run : Run Serves before actions after)
    (opens : ∀ action ∈ actions, ∀ sessionId, action.Opens calls sessionId) :
    ∃ history, HasHistory calls began before after history := by
  obtain ⟨history, serial, ongoing, final⟩ := (serialized.restart unstarted).run fresh run opens
  have once := final.once
  rw [List.filterMap_append] at once
  have passes : ∀ {process past} {known : Prop}, began process →
      ((began process ∧ past = before.database ∨ ¬ began process ∧ known) ∨
          Run.Passes (Performs calls) before.database history past after.database) →
      Run.Passes (Performs calls) before.database history past after.database := by
    rintro process past known begins ((⟨_, rfl⟩ | ⟨not, _⟩) | passes)
    · exact Run.passes_start serial
    · exact (not begins).elim
    · exact passes
  refine ⟨history, serial, once.sublist (List.sublist_append_right _ _), ongoing,
    fun process value member => final.entries process value (List.mem_append_right _ member),
    fun process value begins done => ?_, fun process error begins done => ?_⟩
  · rcases (final.attends process).finished done with member | ⟨past, known, ends⟩
    · rcases List.mem_append.mp member with early | late
      · have ended := serialized.entries process value early
        rw [(unstarted process begins).same] at ended
        cases ended
      · exact .inl late
    · exact .inr ⟨past, passes begins known, ends⟩
  · obtain ⟨past, known, ends⟩ := (final.attends process).finished done
    exact ⟨past, passes begins known, ends.failed⟩

/-- The call has no statement among the actions. -/
def BeginsAfter (actions : List ServiceAction) (process : Nat) : Prop :=
  ∀ action ∈ actions, action ≠ .statement process

/-- However the statements of the calls interleave, there is an order of the calls themselves in
which each does at once what it did, and a call that begins after another has ended is not
before it in that order. -/
theorem calls_have_history {calls : Workload} {actions later : List ServiceAction}
    (fresh : calls.Fresh) (first : Run Serves calls.start actions middle)
    (second : Run Serves middle later cluster)
    (opens : ∀ action ∈ actions ++ later, ∀ sessionId, action.Opens calls sessionId) :
    ∃ history, HasHistory calls (BeginsAfter actions) middle cluster history := by
  have early := fun action member => opens action (List.mem_append_left later member)
  obtain ⟨_, _, _, serialized⟩ := (start_serialized calls).run fresh first early
  exact serialized.hasHistory (fun process => run_unstarted fresh first early) fresh second
    fun action member => opens action (List.mem_append_right actions member)

/-- Reservations of one key, each without a session. -/
def contenders : Workload := fun process =>
  (.reserveRun (racers process).request, (racers process).ambient)

theorem contenders_fresh : contenders.Fresh where
  sessions sessionId one two := by
    rintro ⟨record, ⟨request, same, _, rfl⟩, own⟩ ⟨other, ⟨second, also, _, rfl⟩, mine⟩
    have equal := own.trans mine.symm
    simpa [contenders, racers, Ambient.sample, InMemorySessionStore.implicitSession]
      using congrArg String.length equal
  runs {one ref two} first second := by
    have own : ref = (racers one).model.id := List.mem_singleton.mp first
    have mine : ref = (racers two).model.id := List.mem_singleton.mp second
    exact racers_fresh.distinctRuns (own.symm.trans mine)

/-- One reservation wins between the two lookups of the other, which leaves a session that no
run is in. -/
theorem calls_have_history_contenders : ∃ middle cluster history,
    Run Serves contenders.start [.statement 1] middle ∧
    Run Serves middle ([0, 0, 0, 0, 0, 0, 1, 1, 1].map .statement) cluster ∧
    cluster.database.sessions.values.length = 2 ∧ cluster.database.runs.values.length = 1 ∧
    HasHistory contenders (BeginsAfter [.statement 1]) middle cluster history := by
  obtain ⟨cluster, run, sessions, runs⟩ : ∃ cluster,
      Run Serves contenders.start ([1, 0, 0, 0, 0, 0, 0, 1, 1, 1].map .statement) cluster ∧
        cluster.database.sessions.values.length = 2 ∧ cluster.database.runs.values.length = 1 :=
    follow_reaches (by decide +kernel)
  obtain ⟨middle, first, second⟩ := Run.split (show Run Serves contenders.start
    ([.statement 1] ++ [0, 0, 0, 0, 0, 0, 1, 1, 1].map .statement) cluster from run)
  obtain ⟨history, has⟩ := calls_have_history contenders_fresh first second (by simp
    [ServiceAction.Opens])
  exact ⟨middle, cluster, history, first, second, sessions, runs, has⟩

end DayuAgent
