import Mathlib.Data.List.TakeWhile

namespace Library

namespace EventStream

structure Event where
  lastEventId : String
  type : String
  data : String
  deriving Repr, DecidableEq

/-- The buffers of a parser between two lines. -/
structure Parser where
  lastEventId : List Char
  type : List Char
  data : List Char

/-- A parser that has dispatched everything it has read. -/
def Parser.ready (lastEventId : List Char) : Parser := { lastEventId, type := [], data := [] }

/-- The lines of a text: LF, CR or CRLF ends one, the end of the text does not. -/
def linesFrom (line : List Char) : List Char → List (List Char)
  | [] => []
  | '\r' :: '\n' :: rest => line :: linesFrom [] rest
  | '\r' :: rest => line :: linesFrom [] rest
  | '\n' :: rest => line :: linesFrom [] rest
  | char :: rest => linesFrom (line ++ [char]) rest

/-- The name before the first colon, and the value behind it less one space. -/
def splitField (line : List Char) : List Char × List Char :=
  (line.takeWhile (· != ':'),
    match line.dropWhile (· != ':') with
    | ':' :: ' ' :: value => value
    | ':' :: value => value
    | _ => [])

/-- Other fields, and comments, whose name is empty, leave the buffers alone. -/
def Parser.process (parser : Parser) (name value : List Char) : Parser :=
  if name = "event".toList then { parser with type := value }
  else if name = "data".toList then { parser with data := parser.data ++ value ++ ['\n'] }
  else if name = "id".toList ∧ '\x00' ∉ value then { parser with lastEventId := value }
  else parser

/-- Without data there is no event; the last line feed of the data is not part of it. -/
def Parser.dispatch (parser : Parser) : Option Event :=
  if parser.data = [] then none
  else some
    { lastEventId := .ofList parser.lastEventId
      type := if parser.type = [] then "message" else .ofList parser.type
      data := .ofList parser.data.dropLast }

def Parser.events : Parser → List (List Char) → List Event
  | _, [] => []
  | parser, [] :: rest => parser.dispatch.toList ++ (Parser.ready parser.lastEventId).events rest
  | parser, line :: rest =>
    (parser.process (splitField line).1 (splitField line).2).events rest

/-- A leading byte order mark is not part of the stream. -/
def withoutMark : List Char → List Char
  | '\uFEFF' :: rest => rest
  | text => text

def parse (text : String) : List Event :=
  (Parser.ready []).events (linesFrom [] (withoutMark text.toList))

/-- The text stays on one line. -/
def Unbroken (text : List Char) : Prop := '\n' ∉ text ∧ '\r' ∉ text

theorem Unbroken.append {text more : List Char} (first : Unbroken text) (second : Unbroken more) :
    Unbroken (text ++ more) :=
  ⟨by simp [first.1, second.1], by simp [first.2, second.2]⟩

theorem linesFrom_line {line : List Char} (unbroken : Unbroken line) (start rest : List Char) :
    linesFrom start (line ++ '\n' :: rest) = (start ++ line) :: linesFrom [] rest := by
  induction line generalizing start with
  | nil => simp [linesFrom]
  | cons char line ih =>
    obtain ⟨feed, carriage⟩ := unbroken
    rw [List.mem_cons, not_or] at feed carriage
    rw [List.cons_append, linesFrom, ih ⟨feed.2, carriage.2⟩]
    · simp
    all_goals grind

/-- A line `name: value`. -/
def fieldLine (name : String) (value : List Char) : List Char :=
  name.toList ++ ':' :: ' ' :: value

theorem splitField_fieldLine {name : String} (bare : ':' ∉ name.toList) (value : List Char) :
    splitField (fieldLine name value) = (name.toList, value) := by
  have plain : ∀ char ∈ name.toList, (char != ':') = true := by
    intro char member
    simpa using ne_of_mem_of_not_mem member bare
  rw [splitField, fieldLine, List.takeWhile_append_of_pos plain,
    List.dropWhile_append_of_pos plain]
  simp

theorem events_field {name : String} (bare : ':' ∉ name.toList) (parser : Parser)
    (value : List Char) (rest : List (List Char)) :
    parser.events (fieldLine name value :: rest) =
      (parser.process name.toList value).events rest := by
  have filled : fieldLine name value ≠ [] := by simp [fieldLine]
  rw [Parser.events, splitField_fieldLine bare]
  exact filled

/-- What a server sends for one event: an identifier, a type and one line of data. -/
structure Message where
  id : List Char
  type : List Char
  data : List Char
  numbered : Unbroken id ∧ '\x00' ∉ id
  typed : Unbroken type ∧ type ≠ []
  filled : Unbroken data

namespace Message

variable (message : Message)

def lines : List (List Char) :=
  [fieldLine "id" message.id, fieldLine "event" message.type, fieldLine "data" message.data, []]

def text : List Char := message.lines.flatMap (· ++ ['\n'])

def event : Event :=
  { lastEventId := .ofList message.id, type := .ofList message.type
    data := .ofList message.data }

theorem unbroken_lines : ∀ line ∈ message.lines, Unbroken line := by
  simp only [lines, List.forall_mem_cons]
  have named : Unbroken "id: ".toList ∧ Unbroken "event: ".toList ∧ Unbroken "data: ".toList := by
    simp [Unbroken]
  refine ⟨named.1.append message.numbered.1, named.2.1.append message.typed.1,
    named.2.2.append message.filled, by simp [Unbroken], by simp⟩

theorem events_lines (before : List Char) (rest : List (List Char)) :
    (Parser.ready before).events (message.lines ++ rest) =
      message.event :: (Parser.ready message.id).events rest := by
  have one : (Parser.ready before).process "id".toList message.id = Parser.ready message.id := by
    simp [Parser.process, Parser.ready, message.numbered.2]
  have two : (Parser.ready message.id).process "event".toList message.type =
      { Parser.ready message.id with type := message.type } := rfl
  have three : Parser.process { Parser.ready message.id with type := message.type }
        "data".toList message.data =
      { lastEventId := message.id, type := message.type, data := message.data ++ ['\n'] } := by
    simp [Parser.process, Parser.ready]
  simp only [lines, List.cons_append, List.nil_append]
  rw [events_field (by decide), one, events_field (by decide), two, events_field (by decide),
    three, Parser.events]
  simp [Parser.dispatch, event, message.typed.2]

end Message

theorem linesFrom_lines {lines : List (List Char)} (unbroken : ∀ line ∈ lines, Unbroken line)
    (rest : List Char) : linesFrom [] (lines.flatMap (· ++ ['\n']) ++ rest) =
      lines ++ linesFrom [] rest := by
  induction lines with
  | nil => rfl
  | cons line lines ih =>
    obtain ⟨first, others⟩ := List.forall_mem_cons.mp unbroken
    simp only [List.flatMap_cons, List.append_assoc, List.cons_append, List.nil_append]
    rw [linesFrom_line first, ih others, List.nil_append]

theorem events_messages (messages : List Message) (before : List Char) :
    (Parser.ready before).events (linesFrom [] (messages.flatMap Message.text)) =
      messages.map Message.event := by
  induction messages generalizing before with
  | nil => rfl
  | cons message messages ih =>
    rw [List.flatMap_cons, Message.text, linesFrom_lines message.unbroken_lines,
      message.events_lines, ih, List.map_cons]

/-- The client receives one event for each message, in order. -/
theorem parse_messages (messages : List Message) :
    parse (.ofList (messages.flatMap Message.text)) = messages.map Message.event := by
  have unmarked : withoutMark (messages.flatMap Message.text) = messages.flatMap Message.text := by
    cases messages <;> rfl
  rw [parse, String.toList_ofList, unmarked, events_messages]

/-- A cut text ends before some of its parts, or within one of them. -/
theorem prefix_append_cases {text first rest : List Char} (cut : text <+: first ++ rest) :
    (text <+: first ∧ text.length < first.length) ∨
      ∃ more, text = first ++ more ∧ more <+: rest := by
  rcases List.prefix_or_prefix_of_prefix cut (List.prefix_append first rest) with inner | outer
  · rcases inner.length_le.lt_or_eq with shorter | same
    · exact .inl ⟨inner, shorter⟩
    · obtain rfl := inner.eq_of_length same
      exact .inr ⟨[], (List.append_nil _).symm, List.nil_prefix⟩
  · obtain ⟨more, rfl⟩ := outer
    exact .inr ⟨more, rfl, (List.prefix_append_right_inj first).mp cut⟩

theorem linesFrom_unbroken {line : List Char} (unbroken : Unbroken line) (start : List Char) :
    linesFrom start line = [] := by
  induction line generalizing start with
  | nil => rfl
  | cons char line ih =>
    obtain ⟨feed, carriage⟩ := unbroken
    rw [List.mem_cons, not_or] at feed carriage
    rw [linesFrom, ih ⟨feed.2, carriage.2⟩]
    all_goals grind

/-- The lines of a text that is cut before its end miss the last one. -/
theorem linesFrom_cut {lines : List (List Char)} (unbroken : ∀ line ∈ lines, Unbroken line)
    (cut : text <+: lines.flatMap (· ++ ['\n']))
    (short : text.length < (lines.flatMap (· ++ ['\n'])).length) :
    linesFrom [] text <+: lines.dropLast := by
  induction lines generalizing text with
  | nil => simp at short
  | cons line lines ih =>
    obtain ⟨first, others⟩ := List.forall_mem_cons.mp unbroken
    simp only [List.flatMap_cons] at cut short
    rcases prefix_append_cases cut with ⟨inner, shorter⟩ | ⟨more, rfl, rest⟩
    · have within : text <+: line := by
        refine List.prefix_of_prefix_length_le inner (List.prefix_append line ['\n']) ?_
        simp only [List.length_append, List.length_singleton] at shorter
        omega
      have plain : Unbroken text := by
        exact ⟨fun member => first.1 (within.subset member),
          fun member => first.2 (within.subset member)⟩
      rw [linesFrom_unbroken plain]
      exact List.nil_prefix
    · simp only [List.length_append] at short
      have following := ih others rest (by omega)
      have filled : lines ≠ [] := by
        intro none
        rw [none, List.flatMap_nil, List.length_nil] at short
        omega
      rw [List.append_assoc, List.singleton_append, linesFrom_line first, List.nil_append,
        List.dropLast_cons_of_ne_nil filled]
      exact (List.prefix_cons_inj line).mpr following

/-- Lines without a blank one among them dispatch nothing. -/
theorem events_filled {lines : List (List Char)} (filled : ∀ line ∈ lines, line ≠ [])
    (parser : Parser) : parser.events lines = [] := by
  induction lines generalizing parser with
  | nil => rfl
  | cons line lines ih =>
    obtain ⟨first, others⟩ := List.forall_mem_cons.mp filled
    rw [Parser.events]
    · exact ih others _
    · exact first

theorem Message.filled_lines (message : Message) :
    ∀ line ∈ message.lines.dropLast, line ≠ [] := by
  simp [Message.lines, fieldLine]

theorem events_cut (messages : List Message) (before : List Char)
    (cut : text <+: messages.flatMap Message.text) :
    ∃ count, (Parser.ready before).events (linesFrom [] text) =
      (messages.take count).map Message.event := by
  induction messages generalizing before text with
  | nil =>
    obtain rfl := List.prefix_nil.mp cut
    exact ⟨0, rfl⟩
  | cons message messages ih =>
    rw [List.flatMap_cons] at cut
    rcases prefix_append_cases cut with ⟨inner, shorter⟩ | ⟨more, rfl, rest⟩
    · have lines := linesFrom_cut message.unbroken_lines inner shorter
      refine ⟨0, events_filled (fun line member => ?_) _⟩
      exact message.filled_lines line (lines.subset member)
    · obtain ⟨count, received⟩ := ih message.id rest
      refine ⟨count + 1, ?_⟩
      rw [Message.text, linesFrom_lines message.unbroken_lines, message.events_lines, received]
      rfl

/-- A client whose connection breaks within the stream has received the first messages. -/
theorem parse_cut (messages : List Message) (cut : text <+: messages.flatMap Message.text) :
    ∃ count, parse (.ofList text) = (messages.take count).map Message.event := by
  have unmarked : withoutMark text = text := by
    cases text with
    | nil => rfl
    | cons char rest =>
      cases messages with
      | nil => simp at cut
      | cons message messages =>
        obtain ⟨same, _⟩ := List.cons_prefix_cons.mp cut
        subst same
        rfl
  rw [parse, String.toList_ofList, unmarked]
  exact events_cut messages [] cut

end EventStream

end Library
