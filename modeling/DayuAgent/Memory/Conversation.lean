import DayuAgent.Memory.Transcript

namespace DayuAgent

open Library InMemorySessionStore

/-- Two messages of one run, where the answer is one of those that may follow the messages in
front and the question. -/
structure Exchange (Reply : String → List AgentMessage → String → String → Prop) (ref : String)
    (front : List AgentMessage) (user assistant : AgentMessage) : Prop where
  asked : user.runId = some ref ∧ user.role = .user
  answered : assistant.runId = some ref ∧ assistant.role = .assistant
  reply : Reply ref front user.content assistant.content

/-- Every message of a run belongs to an exchange. -/
def Conversation (Reply : String → List AgentMessage → String → String → Prop)
    (transcript : List AgentMessage) : Prop :=
  ∀ message ∈ transcript, ∀ ref, message.runId = some ref → ∃ front user assistant,
    front ++ [user, assistant] <+: transcript ∧ message ∈ [user, assistant] ∧
    Exchange Reply ref front user assistant

variable {Reply Later : String → List AgentMessage → String → String → Prop}
variable {transcript : List AgentMessage} {store after : InMemorySessionStore}

private theorem Conversation.nil : Conversation Reply [] := by
  intro message member
  cases member

theorem Conversation.mono (conversation : Conversation Reply transcript)
    (weaker : ∀ ref front content answer, Reply ref front content answer →
      Later ref front content answer) : Conversation Later transcript := by
  intro message member ref bound
  obtain ⟨front, user, assistant, before, own, exchange⟩ := conversation message member ref bound
  exact ⟨front, user, assistant, before, own, exchange.asked, exchange.answered,
    weaker _ _ _ _ exchange.reply⟩

/-- What follows a conversation changes no exchange in it. -/
theorem Conversation.append {more : List AgentMessage}
    (conversation : Conversation Reply transcript)
    (fresh : ∀ message ∈ more, ∀ ref, message.runId = some ref → ∃ front user assistant,
      front ++ [user, assistant] <+: transcript ++ more ∧ message ∈ [user, assistant] ∧
      Exchange Reply ref front user assistant) : Conversation Reply (transcript ++ more) := by
  intro message member ref bound
  rcases List.mem_append.mp member with old | new
  · obtain ⟨front, user, assistant, before, rest⟩ := conversation message old ref bound
    exact ⟨front, user, assistant, before.trans (List.prefix_append _ _), rest⟩
  · exact fresh message new ref bound

private theorem Conversation.turn (conversation : Conversation Reply transcript) (run : AgentRun)
    (request : CommitRunRequest) (sequence : Nat) (ambient : Ambient)
    (reply : Reply run.id transcript request.userContent request.assistantContent) :
    Conversation Reply (transcript ++ turnMessages run request sequence ambient) := by
  refine conversation.append fun message member ref bound => ?_
  have own := turnMessages_runId member
  rw [bound] at own
  cases own
  exact ⟨transcript, _, _, List.prefix_rfl, member, ⟨rfl, rfl⟩, ⟨rfl, rfl⟩, reply⟩

private theorem InMemorySessionStore.Rewrites.conversation {effect : Effect} {sessionId : String}
    (rewrites : Rewrites store effect sessionId transcript)
    (held : ∀ sessionId transcript, store.messages.get? sessionId = some transcript →
      Conversation Reply transcript) : Conversation Reply transcript := by
  cases rewrites with
  | kept read => exact held _ _ read
  | grown read _ unbound =>
    refine (held _ _ read).append fun message member ref bound => ?_
    rw [List.mem_singleton] at member
    rw [member, unbound] at bound
    contradiction
  | cleared | opened => exact .nil

/-- A call keeps transcripts conversations if a commit brings an answer that may follow the
transcript. -/
theorem InMemorySessionStore.Refines.conversation {operation : Operation}
    (refines : Refines store operation reply after) (coherent : Coherent store)
    (held : ∀ sessionId transcript, store.messages.get? sessionId = some transcript →
      Conversation Reply transcript)
    (commits : ∀ run request history, operation = .commitRunSuccess run.id request →
      store.runs.get? run.id = some run → run.status = .running →
      store.messages.get? run.sessionId = some history →
      Reply run.id history request.userContent request.assistantContent) :
    ∀ sessionId transcript, after.messages.get? sessionId = some transcript →
      Conversation Reply transcript := by
  obtain ⟨effects, edits, makes⟩ := refines
  by_cases committed : ∃ ref request, .committed ref request ∈ effects
  · obtain ⟨ref, request, member⟩ := committed
    obtain ⟨rfl, _, rfl⟩ := (makes_committed makes).mp member
    cases edits.of_single with
    | @commit run record history log found running session own transcript read request ambient =>
      intro sessionId later present
      rw [withTurn_messages, Dict.get?_set] at present
      split at present
      · cases present
        refine (held _ _ transcript).turn run request _ ambient ?_
        exact commits run request history rfl found running (own ▸ transcript)
      · exact held _ _ present
  · clear makes
    push Not at committed
    induction edits with
    | nil => exact held
    | @snoc _ _ effect _ earlier edit ih =>
      intro sessionId transcript present
      have silent : ∀ ref request, effect ≠ .committed ref request := by
        rintro ref request rfl
        exact committed ref request (List.mem_append_right _ (List.mem_singleton_self _))
      have rewrites := rewrites_of_edit edit (edits_coherent earlier coherent) silent present
      refine rewrites.conversation ?_
      exact ih fun ref request member => committed ref request (List.mem_append_left _ member)

end DayuAgent
