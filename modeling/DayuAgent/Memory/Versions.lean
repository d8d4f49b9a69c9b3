import DayuAgent.Memory.Reachable

namespace DayuAgent

open Library

/-- The call successfully appended to, cleared or committed to the session. -/
def Call.rewrites (sessionId : String) (call : Call) : Bool :=
  match call.operation, call.reply with
  | .appendMessage own _ _ _, .ok _ => own = sessionId
  | .clearSession own, .ok _ => own = sessionId
  | .commitRunSuccess _ _, .ok (.run run) => run.sessionId = sessionId
  | _, _ => false

/-- Effects that change no transcript that is there. -/
def Effect.Silent : Effect → Prop
  | .said _ _ | .cleared _ | .committed _ _ => False
  | _ => True

/-- Operations whose success rewrites a transcript. -/
def Operation.Writer : Operation → Prop
  | .appendMessage .. | .clearSession .. | .commitRunSuccess .. => True
  | _ => False

theorem makes_silent (makes : Makes operation reply effects) (other : ¬ operation.Writer) :
    ∀ effect ∈ effects, effect.Silent := by
  intro effect member
  have origin := makes.origin member
  cases effect with
  | said =>
    obtain ⟨_, _, _, rfl⟩ := origin
    exact other trivial
  | cleared | committed =>
    cases origin
    exact other trivial
  | _ => trivial

open InMemorySessionStore

/-- Session and transcript stay as they are. -/
structure Undisturbed (sessionId : String) (store after : InMemorySessionStore) : Prop where
  session : after.sessions.get? sessionId = store.sessions.get? sessionId
  transcript : after.messages.get? sessionId = store.messages.get? sessionId

theorem Undisturbed.rfl : Undisturbed sessionId store store := ⟨Eq.refl _, Eq.refl _⟩

theorem Undisturbed.trans (first : Undisturbed sessionId store between)
    (second : Undisturbed sessionId between after) : Undisturbed sessionId store after :=
  ⟨second.session.trans first.session, second.transcript.trans first.transcript⟩

/-- A transcript is replaced in one session only. -/
theorem undisturbed_withTranscript (store : InMemorySessionStore) (record : SessionRecord)
    (history : List AgentMessage) (now : Time) (other : sessionId ≠ record.id) :
    Undisturbed sessionId store (withTranscript store record history now) :=
  ⟨Dict.get?_set_ne _ _ other, Dict.get?_set_ne _ _ other⟩

theorem Edit.undisturbed (edit : Edit store effect after) (silent : effect.Silent)
    (found : store.sessions.get? sessionId = some record) : Undisturbed sessionId store after := by
  cases edit with
  | say | clear | commit => exact silent.elim
  | openSession opened absent =>
    have other : sessionId ≠ opened.id := by
      rintro rfl
      rw [absent] at found
      contradiction
    exact ⟨Dict.get?_set_ne _ _ other, Dict.get?_set_ne _ _ other⟩
  | ready | reserve | attempt | emit | move | prune => exact ⟨rfl, rfl⟩

theorem edits_undisturbed (edits : Run Edit store effects after)
    (silent : ∀ effect ∈ effects, effect.Silent)
    (found : store.sessions.get? sessionId = some record) : Undisturbed sessionId store after := by
  induction edits with
  | nil => exact .rfl
  | snoc earlier edit ih =>
    obtain ⟨before, last⟩ := List.forall_mem_append.mp silent
    have kept := ih before
    exact kept.trans
      (edit.undisturbed (last _ (List.mem_singleton_self _)) (kept.session.trans found))

/-- The version of the session grows by so much, and unless it grows the transcript is the
same. -/
structure Versioned (sessionId : String) (amount : Nat) (store after : InMemorySessionStore) :
    Prop where
  version : (after.sessions.get? sessionId).map (·.version) =
    (store.sessions.get? sessionId).map (·.version + amount)
  transcript : amount = 0 → after.messages.get? sessionId = store.messages.get? sessionId

theorem Undisturbed.versioned (undisturbed : Undisturbed sessionId store after) :
    Versioned sessionId 0 store after :=
  ⟨by rw [undisturbed.session]; rfl, fun _ => undisturbed.transcript⟩

theorem Versioned.trans (first : Versioned sessionId amount store between)
    (second : Versioned sessionId more between after) :
    Versioned sessionId (amount + more) store after where
  version := by
    have shift : (after.sessions.get? sessionId).map (·.version) =
        ((between.sessions.get? sessionId).map (·.version)).map (· + more) := by
      rw [second.version, Option.map_map]
      rfl
    rw [shift, first.version, Option.map_map]
    congr 1
    funext record
    exact Nat.add_assoc _ _ _
  transcript := by
    intro none
    rw [second.transcript (by omega), first.transcript (by omega)]

/-- A rewritten transcript raises the version of its session by one, and of no other. -/
theorem versioned_withTranscript (found : store.sessions.get? record.id = some record)
    (history : List AgentMessage) (now : Time) (sessionId : String) :
    Versioned sessionId (if record.id = sessionId then 1 else 0) store
      (withTranscript store record history now) := by
  by_cases own : record.id = sessionId
  · subst own
    rw [if_pos rfl]
    refine ⟨?_, nofun⟩
    simp [withTranscript, found, touched]
  · rw [if_neg own]
    exact (undisturbed_withTranscript store record history now (Ne.symm own)).versioned

section Operations

variable (coherent : Coherent store) {ambient : Ambient} {reply : Except PyException Reply}

include coherent

private theorem appendMessage_versioned
    (answered : (Operation.appendMessage own role content metadata).perform ambient store =
      (reply, after)) (sessionId : String) :
    Versioned sessionId
      (if Call.rewrites sessionId ⟨ambient, .appendMessage own role content metadata, reply⟩
        then 1 else 0) store after := by
  rcases appendMessage_cases coherent own role content metadata ambient with
    ⟨_, answer⟩ | ⟨_, _, answer⟩ | ⟨record, history, found, rfl, _, _, answer⟩ <;>
  rw [Operation.perform, wrap_apply, answer] at answered <;> cases answered
  · exact Undisturbed.rfl.versioned
  · exact Undisturbed.rfl.versioned
  · simpa [Call.rewrites, Except.map] using versioned_withTranscript found _ _ sessionId

private theorem clearSession_versioned
    (answered : (Operation.clearSession own).perform ambient store = (reply, after))
    (sessionId : String) :
    Versioned sessionId
      (if Call.rewrites sessionId ⟨ambient, .clearSession own, reply⟩ then 1 else 0)
      store after := by
  rcases clearSession_cases coherent own ambient with
    ⟨_, answer⟩ | ⟨_, _, answer⟩ | ⟨record, found, rfl, _, answer⟩ <;>
  rw [Operation.perform, Command.bind_apply, answer] at answered <;> cases answered
  · exact Undisturbed.rfl.versioned
  · exact Undisturbed.rfl.versioned
  · simpa [Call.rewrites] using versioned_withTranscript found _ _ sessionId

private theorem commitRunSuccess_versioned
    (answered : (Operation.commitRunSuccess ref request).perform ambient store = (reply, after))
    (sessionId : String) :
    Versioned sessionId
      (if Call.rewrites sessionId ⟨ambient, .commitRunSuccess ref request, reply⟩ then 1 else 0)
      store after := by
  rcases commitRunSuccess_cases coherent ref request ambient with
    ⟨_, answer⟩ | ⟨run, _, _, answer⟩ |
    ⟨run, record, history, log, _, rfl, _, found, own, _, _, answer⟩ <;>
  rw [Operation.perform, wrap_apply, answer] at answered <;> cases answered
  · exact Undisturbed.rfl.versioned
  · exact Undisturbed.rfl.versioned
  · have raised := versioned_withTranscript found
      (history ++ turnMessages run request (history.length + 1) ambient) (ambient.utcNow 2)
      sessionId
    have committed : Call.rewrites sessionId ⟨ambient, .commitRunSuccess run.id request,
        .ok (.run (completedRun run request (ambient.utcNow 2)))⟩ = true ↔
        record.id = sessionId := by
      simp [Call.rewrites, completedRun, own]
    simp only [Except.map, committed]
    exact ⟨raised.version, raised.transcript⟩

end Operations

private theorem Answers.versioned (answers : Answers store call after) (coherent : Coherent store)
    (found : store.sessions.get? sessionId = some record) :
    Versioned sessionId (if call.rewrites sessionId then 1 else 0) store after := by
  obtain ⟨effects, edits, makes⟩ := answers.refines coherent
  obtain ⟨ambient, operation, reply⟩ := call
  obtain ⟨_, answered⟩ := answers
  cases operation with
  | appendMessage => exact appendMessage_versioned coherent answered sessionId
  | clearSession => exact clearSession_versioned coherent answered sessionId
  | commitRunSuccess => exact commitRunSuccess_versioned coherent answered sessionId
  | _ => exact (edits_undisturbed edits (makes_silent makes id) found).versioned

theorem Versioned.session (versioned : Versioned sessionId amount store after)
    (found : store.sessions.get? sessionId = some record) :
    ∃ later, after.sessions.get? sessionId = some later ∧
      later.version = record.version + amount := by
  have version := versioned.version
  rw [found, Option.map_some] at version
  obtain ⟨later, present, same⟩ := Option.map_eq_some_iff.mp version
  exact ⟨later, present, same⟩

private theorem History.versioned (history : History store calls after) (coherent : Coherent store)
    (found : store.sessions.get? sessionId = some record) :
    Versioned sessionId (calls.countP (·.rewrites sessionId)) store after := by
  induction history with
  | nil => exact Undisturbed.rfl.versioned
  | snoc earlier answers ih =>
    obtain ⟨_, present, _⟩ := ih.session found
    rw [List.countP_append, List.countP_singleton]
    exact ih.trans (Answers.versioned answers (History.coherent earlier coherent) present)

/-- The version counts the writes to the transcript, and equal versions mean equal
transcripts. -/
theorem version_identifies_transcript (before : History empty calls store)
    (between : History store more after)
    (found : store.sessions.get? sessionId = some record) :
    ∃ later, after.sessions.get? sessionId = some later ∧
      later.version = record.version + more.countP (·.rewrites sessionId) ∧
      (later.version = record.version →
        (listMessages sessionId after).1 = (listMessages sessionId store).1) := by
  have coherent := History.coherent before empty_coherent
  have versioned := History.versioned between coherent found
  obtain ⟨later, present, grown⟩ := versioned.session found
  refine ⟨later, present, grown, ?_⟩
  intro same
  have transcript := versioned.transcript (by omega)
  obtain ⟨history, read⟩ := coherent.transcriptOf found
  rw [listMessages_ok found read, listMessages_ok present (transcript.trans read)]

theorem version_identifies_transcript_sampleTurn : ∃ record later,
    (execute empty (sampleTurn.take 1)).2.sessions.get? "lake" = some record ∧
    (execute (execute empty (sampleTurn.take 1)).2 (sampleTurn.drop 1)).2.sessions.get? "lake" =
      some later ∧ later.version = record.version + 1 := by
  have opening := execute_history (sampleTurn.take 1) empty (by decide)
  have turn := execute_history (sampleTurn.drop 1) (execute empty (sampleTurn.take 1)).2
    (by decide)
  obtain ⟨record, found⟩ := Option.isSome_iff_exists.mp
    (show ((execute empty (sampleTurn.take 1)).2.sessions.get? "lake").isSome by decide)
  obtain ⟨later, present, grown, _⟩ := version_identifies_transcript opening turn found
  exact ⟨record, later, found, present, grown⟩

end DayuAgent
