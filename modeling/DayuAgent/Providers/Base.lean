import DayuAgent.Agents.Contracts

namespace DayuAgent

/-- The outcomes that a request may have: of `run`, and of `stream` with its events and how
it ends. -/
structure ModelProvider where
  runs : ProviderRequest → Except Failure ProviderResponse → Prop
  streams : ProviderRequest → List ProviderStreamEvent → Except Failure Unit → Prop

/-- The final event of a stream; it also stands for the answer of `run`. -/
def ProviderResponse.final (response : ProviderResponse) : ProviderStreamEvent :=
  { delta := none, response := some response, done := true }

def deltaEvent (delta : String) : ProviderStreamEvent :=
  { delta := some delta, response := none, done := false }

namespace ModelProvider

/-- A provider of which nothing is known. -/
def arbitrary : ModelProvider where
  runs _ _ := True
  streams _ _ _ := True

/-- The events of an invocation that has come to its regular end. -/
inductive Completes (provider : ModelProvider) (request : ProviderRequest) :
    List ProviderStreamEvent → Prop where
  | streamed {events : List ProviderStreamEvent}
      (streams : provider.streams request events (.ok ())) : Completes provider request events
  | answered {response : ProviderResponse} (runs : provider.runs request (.ok response)) :
      Completes provider request [response.final]

end ModelProvider

/-- The deltas of a provider stream. -/
def streamText (stream : List ProviderStreamEvent) : List String := stream.filterMap (·.delta)

/-- The response of the last final event, as the retry loop keeps it. -/
def streamResponse (stream : List ProviderStreamEvent) : Option ProviderResponse :=
  stream.foldl (fun response event => if event.done then event.response else response) none

@[simp] theorem streamText_append (stream later : List ProviderStreamEvent) :
    streamText (stream ++ later) = streamText stream ++ streamText later :=
  List.filterMap_append

theorem streamText_single (event : ProviderStreamEvent) :
    streamText [event] = event.delta.toList := by
  cases same : event.delta <;> simp [streamText, same]

theorem streamText_deltas (deltas : List String) : streamText (deltas.map deltaEvent) = deltas := by
  simp [streamText, List.filterMap_map, Function.comp_def, deltaEvent]

@[simp] theorem streamResponse_concat (stream : List ProviderStreamEvent)
    (event : ProviderStreamEvent) : streamResponse (stream ++ [event]) =
      if event.done then event.response else streamResponse stream := by
  simp [streamResponse]

end DayuAgent
