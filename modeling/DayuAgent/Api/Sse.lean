import Mathlib.Data.List.Forall2
import DayuAgent.Json.Reader
import DayuAgent.Library.EventStream
import DayuAgent.Runtime.State

namespace DayuAgent

open Library

def sseFrame (event : StreamEvent) : String :=
  "id: " ++ toString event.sequence ++ "\nevent: " ++ event.type.value ++
    "\ndata: " ++ (Json.obj event.payload).dumps ++ "\n\n"

/-- What the client receives is the event: its number, its type and its payload. -/
structure Carries (event : StreamEvent) (received : EventStream.Event) : Prop where
  id : received.lastEventId = toString event.sequence
  type : received.type = event.type.value
  line : EventStream.Unbroken received.data.toList
  payload : Json.loads received.data = some (.obj event.payload)

private theorem unbroken_of_printable {text : List Char} (printable : Json.Printable text) :
    EventStream.Unbroken text :=
  ⟨fun member => absurd (printable _ member) (by decide),
    fun member => absurd (printable _ member) (by decide)⟩

private theorem printable_sequence (sequence : Nat) : Json.Printable
    (toString sequence).toList := by
  have digits := Json.printable_word (Json.toString_int_all sequence)
  exact digits

private theorem printable_type (type : StreamEventType) : Json.Printable type.value.toList := by
  cases type <;> exact Json.printable_word (List.all_eq_true.mp rfl)

/-- The message that a frame is. -/
def sseMessage (event : StreamEvent) (formed : (Json.obj event.payload).wellFormed = true) :
    EventStream.Message where
  id := (toString event.sequence).toList
  type := event.type.value.toList
  data := (Json.obj event.payload).encode
  numbered := ⟨unbroken_of_printable (printable_sequence _),
    fun member => absurd (printable_sequence _ _ member) (by decide)⟩
  typed := ⟨unbroken_of_printable (printable_type _), by cases event.type <;> decide⟩
  filled := unbroken_of_printable (Json.printable_encode formed)

private theorem sseFrame_toList (event : StreamEvent)
    (formed : (Json.obj event.payload).wellFormed = true) :
    (sseFrame event).toList = (sseMessage event formed).text := by
  simp [sseFrame, sseMessage, EventStream.Message.text, EventStream.Message.lines,
    EventStream.fieldLine, Json.dumps]

private theorem sseMessage_carries (event : StreamEvent)
    (formed : (Json.obj event.payload).wellFormed = true) :
    Carries event (sseMessage event formed).event where
  id := String.ofList_toList
  type := String.ofList_toList
  line := by
    rw [EventStream.Message.event, String.toList_ofList]
    exact (sseMessage event formed).filled
  payload := Json.loads_dumps formed

theorem frames_messages {events : List StreamEvent}
    (formed : ∀ event ∈ events, (Json.obj event.payload).wellFormed = true) :
    ∃ messages : List EventStream.Message,
      (String.join (events.map sseFrame)).toList =
        messages.flatMap EventStream.Message.text ∧
      List.Forall₂ Carries events (messages.map EventStream.Message.event) := by
  induction events with
  | nil => exact ⟨[], rfl, .nil⟩
  | cons event rest ih =>
    obtain ⟨first, others⟩ := List.forall_mem_cons.mp formed
    obtain ⟨messages, text, carried⟩ := ih others
    refine ⟨sseMessage event first :: messages, ?_, .cons (sseMessage_carries event first) carried⟩
    rw [List.map_cons, String.join_cons, String.toList_append, text, sseFrame_toList event first,
      List.flatMap_cons]

/-- A client that parses the stream of frames receives every event once, in order. -/
theorem sse_round_trip {events : List StreamEvent}
    (formed : ∀ event ∈ events, (Json.obj event.payload).wellFormed = true) :
    List.Forall₂ Carries events (EventStream.parse (.join (events.map sseFrame))) := by
  obtain ⟨messages, text, carried⟩ := frames_messages formed
  rw [← String.ofList_toList (s := String.join (events.map sseFrame)), text,
    EventStream.parse_messages]
  exact carried

/-- A delta that imitates frames of its own. -/
def hostileEvent : StreamEvent :=
  { id := "event", runId := "run", sequence := 2, type := .responseDelta, createdAt := 0
    payload := [("delta", .str "\r\n\ndata: x\r\rid: 9\nevent: run.failed\n\n\"\\\x00\u2028"),
      ("rate", .float "1e-05")] }

theorem sse_round_trip_hostileEvent :
    List.Forall₂ Carries [hostileEvent, { hostileEvent with sequence := 3 }]
      (EventStream.parse (.join ([hostileEvent, { hostileEvent with sequence := 3 }].map
        sseFrame))) :=
  sse_round_trip (by decide +kernel)

end DayuAgent
