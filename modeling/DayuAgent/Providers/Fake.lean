import DayuAgent.Agents.ToolGrammar
import DayuAgent.Providers.Base

namespace DayuAgent

/-- Scripted latency and blocking only delay an invocation and are left out. -/
structure FakeModelProvider where
  modelName : String
  fail : Bool
  failTimes : Int
  failureRetryable : Bool
  streamChunks : Option (List String)
  streamFailAfterDeltas : Option Int

namespace FakeModelProvider

def ofModel (modelName : String) : FakeModelProvider where
  modelName := modelName
  fail := false
  failTimes := 0
  failureRetryable := false
  streamChunks := none
  streamFailAfterDeltas := none

def name : String := "fake"

variable (provider : FakeModelProvider)

def failure : Failure :=
  .domain (.new
    (if provider.failureRetryable then .providerUnavailableError else .providerError) none
    (some [("provider", .str name), ("model", .str provider.modelName)]))

/-- `_raise_scripted_failure` -/
def scriptedFailure (callCount : Nat) : Except Failure Unit :=
  if provider.fail = false ∧ provider.failTimes < callCount then .ok ()
  else .error provider.failure

def userMessages (messages : List ProviderMessage) : List String :=
  (messages.filter fun item => item.role = .user).map (·.content)

/-- `len(text.split())` -/
def wordCount (text : String) : Nat := (tokens text.toList).length

def content (turn : Nat) (latestMessage : String) : String :=
  "Fake response (turn " ++ toString turn ++ "): " ++ latestMessage

/-- `_response`; without a user message the last one cannot be indexed. -/
def response (request : ProviderRequest) : Except Failure ProviderResponse :=
  match (userMessages request.messages).getLast? with
  | none => .error (.other "IndexError")
  | some latestMessage =>
    let content := content (userMessages request.messages).length latestMessage
    .ok { content
          usage := .normalizeTotal 1 ((request.messages.map fun item => wordCount item.content).sum)
            (wordCount content) 0 }

/-- No script and an empty script stand for the whole content. -/
def chunks (content : String) : List String :=
  match provider.streamChunks with
  | some (chunk :: rest) => chunk :: rest
  | _ => [content]

/-- The loop over the chunks from this index on, and the final event. -/
def events (response : ProviderResponse) : List String → Nat →
    List ProviderStreamEvent × Except Failure Unit
  | [], _ => ([response.final], .ok ())
  | chunk :: rest, index =>
    if provider.streamFailAfterDeltas = some (index : Int) then
      ([deltaEvent chunk], .error provider.failure)
    else
      let later := events response rest (index + 1)
      (deltaEvent chunk :: later.1, later.2)

/-- `run`, where the counter of calls has this value after the wait. -/
def run (callCount : Nat) (request : ProviderRequest) : Except Failure ProviderResponse := do
  provider.scriptedFailure callCount
  response request

def stream (callCount : Nat) (request : ProviderRequest) :
    List ProviderStreamEvent × Except Failure Unit :=
  match provider.run callCount request with
  | .error failure => ([], .error failure)
  | .ok response => provider.events response (provider.chunks response.content) 1

/-- Other invocations may count while one of them waits. -/
def modelProvider : ModelProvider where
  runs request outcome := ∃ callCount, 0 < callCount ∧ provider.run callCount request = outcome
  streams request events ending :=
    ∃ callCount, 0 < callCount ∧ provider.stream callCount request = (events, ending)

variable {provider : FakeModelProvider} {request : ProviderRequest}

private theorem run_ok (ran : provider.run callCount request = .ok answer) :
    response request = .ok answer := by
  unfold run at ran
  cases scripted : provider.scriptedFailure callCount with
  | error failure =>
    rw [scripted] at ran
    contradiction
  | ok =>
    rw [scripted] at ran
    exact ran

theorem events_ok {answer : ProviderResponse} {chunks : List String}
    {brought : List ProviderStreamEvent}
    (streamed : provider.events answer chunks index = (brought, .ok ())) :
    brought = chunks.map deltaEvent ++ [answer.final] := by
  induction chunks generalizing index brought with
  | nil =>
    cases streamed
    rfl
  | cons chunk rest ih =>
    unfold events at streamed
    split at streamed
    · simp at streamed
    · obtain ⟨rfl, regular⟩ := Prod.mk.inj streamed
      rw [List.map_cons, List.cons_append, ← ih (Prod.ext rfl regular)]

theorem completes_final {brought : List ProviderStreamEvent}
    (completes : provider.modelProvider.Completes request brought)
    (final : streamResponse brought = some answer) :
    response request = .ok answer ∧
      (streamText brought = [] ∨ streamText brought = provider.chunks answer.content) := by
  cases completes with
  | answered runs =>
    obtain ⟨_, _, ran⟩ := runs
    cases final
    exact ⟨run_ok ran, .inl rfl⟩
  | streamed streams =>
    obtain ⟨callCount, _, same⟩ := streams
    unfold FakeModelProvider.stream at same
    split at same
    · simp at same
    · next given ran =>
      obtain rfl := events_ok same
      rw [streamResponse_concat] at final
      cases final
      refine ⟨run_ok ran, .inr ?_⟩
      rw [streamText_append, streamText_deltas]
      exact List.append_nil _

theorem response_content {messages : List ProviderMessage} {question : String}
    (asked : request.messages = messages ++ [{ role := .user, content := question }])
    (answered : response request = .ok answer) :
    answer.content = content ((userMessages messages).length + 1) question := by
  have users : userMessages request.messages = userMessages messages ++ [question] := by
    simp [asked, userMessages]
  unfold response at answered
  rw [users, List.getLast?_concat] at answered
  cases answered
  rw [List.length_append]
  rfl

end FakeModelProvider

end DayuAgent
