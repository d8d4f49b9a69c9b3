import Mathlib.Data.List.DropRight
import DayuAgent.Agents.Contracts
import DayuAgent.Json.Reader

namespace DayuAgent

/-- The characters that `str.strip` and `str.split` treat as white space. -/
def isSpace (char : Char) : Bool :=
  char.toNat ∈ [0x20, 0x85, 0xA0, 0x1680, 0x2028, 0x2029, 0x202F, 0x205F, 0x3000] ∨
    (0x09 ≤ char.toNat ∧ char.toNat ≤ 0x0D) ∨ (0x1C ≤ char.toNat ∧ char.toNat ≤ 0x1F) ∨
    (0x2000 ≤ char.toNat ∧ char.toNat ≤ 0x200A)

/-- `str.strip()`. -/
def strip (text : String) : String :=
  .ofList ((text.toList.dropWhile isSpace).reverse.dropWhile isSpace).reverse

/-- `str.split(maxsplit=splits)`: what follows the last split keeps its inner and
trailing white space. -/
def splitMax : Nat → List Char → List String
  | 0, text =>
    match text.dropWhile isSpace with
    | [] => []
    | rest => [.ofList rest]
  | splits + 1, text =>
    match text.dropWhile isSpace with
    | [] => []
    | rest => .ofList (rest.takeWhile fun char => !isSpace char) ::
        splitMax splits (rest.dropWhile fun char => !isSpace char)

def toolValidation (message : String) : PyException :=
  .domain (.new .toolValidationError (some message) none)

def missingToolName : PyException :=
  toolValidation "Tool command must include a registered tool name."

def invalidPayload : PyException :=
  toolValidation "Tool command payload must be a JSON object."

/-- Parse the `/tool name {json}` interface. -/
def parseToolCommand (codec : Codec) (message : String) :
    Except PyException (Option (String × JsonObject)) :=
  if message = "/tool" then .error missingToolName
  else if ¬ "/tool ".toList.isPrefixOf message.toList then .ok none
  else
    match splitMax 2 message.toList with
    | [] | [_] => .error missingToolName
    | _ :: name :: rest =>
      match codec.loads (rest.headD "\x7b\x7d") with
      | some (.obj payload) => .ok (some (name, payload))
      | _ => .error invalidPayload

/-- The tokens of a text: its runs of characters other than white space. -/
def tokens (text : List Char) : List (List Char) :=
  (text.splitOnP isSpace).filter (!·.isEmpty)

/-- What follows the first token, less leading white space. -/
def afterToken (text : List Char) : List Char :=
  ((text.dropWhile isSpace).dropWhile (!isSpace ·)).dropWhile isSpace

def payloadOf (codec : Codec) (text : List Char) : Option JsonObject :=
  if text = [] then some []
  else
    match codec.loads (.ofList text) with
    | some (.obj payload) => some payload
    | _ => none

abbrev Parsed := Except PyException (Option (String × JsonObject))

def Refused (parsed : Parsed) : Prop := ∃ text, parsed = .error (toolValidation text)

/-- The grammar over tokens: `/tool`, a name, and a JSON object or nothing. -/
def Grammatical (codec : Codec) (message : String) (parsed : Parsed) : Prop :=
  match tokens message.toList with
  | [] => parsed = .ok none
  | first :: rest =>
    if first = "/tool".toList then
      match rest with
      | [] => Refused parsed
      | name :: _ =>
        match payloadOf codec (afterToken (afterToken message.toList)) with
        | some payload => parsed = .ok (some (.ofList name, payload))
        | none => Refused parsed
    else parsed = .ok none

/-- A first token `/tool` is the whole message or is followed by a plain space. -/
def Recognized (message : String) : Prop :=
  (tokens message.toList).head? = some "/tool".toList →
    message = "/tool" ∨ "/tool ".toList.isPrefixOf message.toList = true

theorem tokens_blank {char : Char} (blank : isSpace char = true) (text : List Char) :
    tokens (char :: text) = tokens text := by
  rw [tokens, List.splitOnP_cons_eq_if_modifyHead, if_pos blank]
  rfl

theorem tokens_dropWhile (text : List Char) :
    tokens (text.dropWhile isSpace) = tokens text := by
  induction text with
  | nil => rfl
  | cons char text ih =>
    by_cases blank : isSpace char = true
    · rw [List.dropWhile_cons_of_pos blank, ih, tokens_blank blank]
    · rw [List.dropWhile_cons_of_neg blank]

/-- The text begins, after white space, with this token and goes on with the rest. -/
structure Leads (text word rest : List Char) : Prop where
  split : text.dropWhile isSpace = word ++ rest
  nonempty : word ≠ []
  solid : ∀ char ∈ word, isSpace char = false
  ends : ∀ char ∈ rest.head?, isSpace char = true

namespace Leads

variable {text word rest : List Char} (leads : Leads text word rest)

include leads

theorem takeWhile : (word ++ rest).takeWhile (!isSpace ·) = word := by
  rw [List.takeWhile_append_of_pos (by simpa using leads.solid)]
  cases rest with
  | nil => simp
  | cons char rest => simp [leads.ends char rfl]

theorem dropWhile : (word ++ rest).dropWhile (!isSpace ·) = rest := by
  rw [List.dropWhile_append_of_pos (by simpa using leads.solid)]
  cases rest with
  | nil => simp
  | cons char rest => simp [leads.ends char rfl]

theorem tokens : tokens text = word :: tokens rest := by
  have filled : (!word.isEmpty) = true := by simpa using leads.nonempty
  rw [← tokens_dropWhile, leads.split]
  cases rest with
  | nil =>
    rw [List.append_nil, DayuAgent.tokens, List.splitOnP_eq_singleton leads.solid,
      List.filter_cons_of_pos (by exact filled)]
    rfl
  | cons char rest =>
    have blank := leads.ends char rfl
    rw [DayuAgent.tokens, List.splitOnP_append_cons_of_forall_mem leads.solid char blank,
      List.filter_cons_of_pos (by exact filled), tokens_blank blank]
    rfl

theorem afterToken : afterToken text = rest.dropWhile isSpace := by
  rw [DayuAgent.afterToken, leads.split, leads.dropWhile]

theorem afterToken_skip :
    DayuAgent.afterToken (text.dropWhile isSpace) = rest.dropWhile isSpace := by
  rw [DayuAgent.afterToken, List.dropWhile_idempotent, ← DayuAgent.afterToken, leads.afterToken]

theorem splitMax (splits : Nat) :
    splitMax (splits + 1) text = .ofList word :: splitMax splits rest := by
  obtain ⟨char, more, same⟩ := List.exists_cons_of_ne_nil
    (List.append_ne_nil_of_left_ne_nil leads.nonempty rest)
  have taken := leads.takeWhile
  have dropped := leads.dropWhile
  rw [DayuAgent.splitMax, leads.split]
  rw [same] at taken dropped ⊢
  dsimp only
  rw [taken, dropped]

end Leads

theorem blank_or_leads (text : List Char) :
    text.dropWhile isSpace = [] ∨ ∃ word rest, Leads text word rest := by
  cases split : text.dropWhile isSpace with
  | nil => exact .inl rfl
  | cons char more =>
    have solid : isSpace char = false := by
      have first := List.head?_dropWhile_not isSpace text
      rw [split] at first
      simpa using first
    refine .inr ⟨(char :: more).takeWhile (!isSpace ·), (char :: more).dropWhile (!isSpace ·), ?_⟩
    constructor
    · rw [split, List.takeWhile_append_dropWhile]
    · simp [solid]
    · intro other member
      simpa using List.mem_takeWhile_imp member
    · intro other member
      have first := List.head?_dropWhile_not (!isSpace ·) (char :: more)
      rw [Option.mem_def.mp member] at first
      simpa using first

private theorem tokens_eq_nil {text : List Char} (blank : text.dropWhile isSpace = []) :
    tokens text = [] := by
  rw [← tokens_dropWhile, blank]
  rfl

theorem leads_tool (more : List Char) (ends : ∀ char ∈ more.head?, isSpace char = true) :
    Leads ("/tool".toList ++ more) "/tool".toList more :=
  ⟨rfl, by decide, by simp [isSpace], ends⟩

section Grammar

variable {codec : Codec} {message : String}

theorem parse_other (other : message ≠ "/tool")
    (unprefixed : ¬ "/tool ".toList.isPrefixOf message.toList = true) :
    parseToolCommand codec message = .ok none := by
  rw [parseToolCommand, if_neg other, if_pos unprefixed]

private theorem parse_spaced {more : List Char}
    (same : message.toList = "/tool".toList ++ ' ' :: more) :
    parseToolCommand codec message =
      match splitMax 1 more with
      | [] => .error missingToolName
      | name :: rest =>
        match codec.loads (rest.headD "\x7b\x7d") with
        | some (.obj payload) => .ok (some (name, payload))
        | _ => .error invalidPayload := by
  have other : message ≠ "/tool" := by
    rintro rfl
    simp at same
  have prefixed : "/tool ".toList.isPrefixOf message.toList = true := by
    rw [same]
    rfl
  have tokens : splitMax 2 message.toList = "/tool" :: splitMax 1 more := by
    have leads := leads_tool (' ' :: more) (by rintro _ ⟨⟩; rfl)
    rw [same, leads.splitMax, String.ofList_toList]
    rfl
  rw [parseToolCommand, if_neg other, if_neg (not_not_intro prefixed), tokens]
  cases splitMax 1 more <;> rfl

/-- Behind `/tool` and a space the parser follows the grammar. -/
theorem grammatical_spaced (empty : codec.loads "\x7b\x7d" = some (.obj []))
    {more : List Char} (same : message.toList = "/tool".toList ++ ' ' :: more) :
    Grammatical codec message (parseToolCommand codec message) := by
  have leads := leads_tool (' ' :: more) (by rintro _ ⟨⟩; rfl)
  rw [Grammatical, same, leads.tokens, tokens_blank rfl, leads.afterToken, parse_spaced same]
  dsimp only
  rw [if_pos rfl]
  rcases blank_or_leads more with blank | ⟨name, rest, leads⟩
  · rw [tokens_eq_nil blank]
    have none : splitMax 1 more = [] := by
      rw [splitMax, blank]
    rw [none]
    exact ⟨_, rfl⟩
  · rw [List.dropWhile_cons_of_pos rfl, leads.afterToken_skip, leads.tokens, leads.splitMax,
      splitMax]
    dsimp only
    cases text : rest.dropWhile isSpace with
    | nil =>
      simp [payloadOf, empty]
    | cons char more =>
      simp only [payloadOf, reduceCtorEq, if_false, List.headD_cons]
      cases read : codec.loads (.ofList (char :: more)) with
      | none => exact ⟨_, rfl⟩
      | some value => cases value <;> first | exact ⟨_, rfl⟩ | rfl

/-- The parser follows the grammar on exactly the messages it recognizes. -/
theorem grammatical_iff (empty : codec.loads "\x7b\x7d" = some (.obj [])) (message : String) :
    Grammatical codec message (parseToolCommand codec message) ↔ Recognized message := by
  by_cases prefixed : "/tool ".toList.isPrefixOf message.toList = true
  · obtain ⟨more, same⟩ := List.isPrefixOf_iff_prefix.mp prefixed
    simp only [Recognized, prefixed, or_true, implies_true, iff_true]
    exact grammatical_spaced empty same.symm
  · by_cases bare : message = "/tool"
    · subst bare
      simp only [Recognized, true_or, implies_true, iff_true]
      exact ⟨_, rfl⟩
    · have unrecognized : Recognized message ↔
          (tokens message.toList).head? ≠ some "/tool".toList := by
        simp only [Recognized, bare, prefixed, Bool.false_eq_true, or_self, ne_eq]
      have accepted : ¬ Refused (.ok none) := by
        rintro ⟨_, _⟩
        contradiction
      rw [parse_other bare prefixed, unrecognized, Grammatical]
      cases tokens message.toList with
      | nil => simp
      | cons first rest =>
        dsimp only
        by_cases tool : first = "/tool".toList
        · rw [if_pos tool, tool, List.head?_cons]
          refine iff_of_false ?_ (not_not_intro rfl)
          cases rest with
          | nil => exact accepted
          | cons name rest =>
            dsimp only
            cases payloadOf codec (afterToken (afterToken message.toList)) with
            | none => exact accepted
            | some payload => nofun
        · rw [if_neg tool, List.head?_cons]
          exact iff_of_true rfl fun same => tool (Option.some.inj same)

end Grammar

/-- What the parser relies on of `json.loads` and `json.dumps`. -/
structure JsonModule (codec : Codec) (dumps : JsonObject → String) : Prop where
  empty : codec.loads "\x7b\x7d" = some (.obj [])
  decodes : ∀ payload, (Json.obj payload).wellFormed = true →
    codec.loads (dumps payload) = some (.obj payload)
  opens : ∀ payload, (dumps payload).toList.head? = some '\x7b'

def Separator (text : List Char) : Prop := text ≠ [] ∧ ∀ char ∈ text, isSpace char = true

def Token (text : List Char) : Prop := text ≠ [] ∧ ∀ char ∈ text, isSpace char = false

/-- A command written out of its parts. -/
def command (first name second text : List Char) : String :=
  .ofList ("/tool".toList ++ (first ++ (name ++ (second ++ text))))

section Command

variable {codec : Codec} {dumps : JsonObject → String} {first name second text : List Char}

theorem Separator.ends (separator : Separator first) (rest : List Char) :
    ∀ char ∈ (first ++ rest).head?, isSpace char = true := by
  obtain ⟨head, more, rfl⟩ := List.exists_cons_of_ne_nil separator.1
  rintro char ⟨⟩
  exact separator.2 head (List.mem_cons_self ..)

theorem Separator.skip (separator : Separator first) (rest : List Char) :
    (first ++ rest).dropWhile isSpace = rest.dropWhile isSpace :=
  List.dropWhile_append_of_pos separator.2

private theorem Token.skip (token : Token name) (rest : List Char) :
    (name ++ rest).dropWhile isSpace = name ++ rest := by
  obtain ⟨head, more, rfl⟩ := List.exists_cons_of_ne_nil token.1
  have solid := token.2 head (List.mem_cons_self ..)
  simp [solid]

private theorem leads_name (separator : Separator first) (token : Token name)
    (behind : Separator second) :
    Leads (first ++ (name ++ (second ++ text))) name (second ++ text) :=
  ⟨by rw [separator.skip, token.skip], token.1, token.2, behind.ends text⟩

theorem command_toList :
    (command first name second text).toList =
      "/tool".toList ++ (first ++ (name ++ (second ++ text))) := by
  unfold command
  exact String.toList_ofList

private theorem parse_unspaced (separator : Separator first) (other : first.head? ≠ some ' ') :
    parseToolCommand codec (command first name second text) = .ok none := by
  obtain ⟨head, more, rfl⟩ := List.exists_cons_of_ne_nil separator.1
  apply parse_other
  · intro bare
    have whole :
        "/tool".toList = "/tool".toList ++ (head :: more ++ (name ++ (second ++ text))) := by
      rw [← command_toList, bare]
    have none := List.self_eq_append_right.mp whole
    contradiction
  · intro prefixed
    obtain ⟨rest, same⟩ := List.isPrefixOf_iff_prefix.mp prefixed
    rw [command_toList] at same
    have aligned : "/tool".toList ++ ' ' :: rest =
        "/tool".toList ++ head :: (more ++ (name ++ (second ++ text))) := same
    have spaced := List.append_cancel_left aligned
    injection spaced with space
    exact other (space ▸ rfl)

private theorem parse_command (json : JsonModule codec dumps) (separator : Separator first)
    (token : Token name) (behind : Separator second) {payload : JsonObject}
    (formed : (Json.obj payload).wellFormed = true) :
    parseToolCommand codec (command first name second (dumps payload).toList) =
        .ok (some (.ofList name, payload)) ↔ first.head? = some ' ' := by
  constructor
  · intro parsed
    by_contra other
    rw [parse_unspaced separator other] at parsed
    injection parsed with none
    contradiction
  · intro spaced
    obtain ⟨more, rfl⟩ := List.head?_eq_some_iff.mp spaced
    have opens := json.opens payload
    obtain ⟨text, opening⟩ := List.head?_eq_some_iff.mp opens
    have follows : Grammatical codec (command (' ' :: more) name second (dumps payload).toList) _ :=
      grammatical_spaced json.empty command_toList
    have tool := leads_tool (' ' :: more ++ (name ++ (second ++ (dumps payload).toList)))
      (separator.ends _)
    have named : Leads (' ' :: more ++ (name ++ (second ++ (dumps payload).toList))) name _ :=
      leads_name separator token behind
    have text : (second ++ (dumps payload).toList).dropWhile isSpace = (dumps payload).toList := by
      rw [behind.skip, opening]
      rfl
    have decoded : payloadOf codec (dumps payload).toList = some payload := by
      rw [payloadOf, if_neg (by simp [opening]), String.ofList_toList, json.decodes payload formed]
    rw [Grammatical, command_toList, tool.tokens, tool.afterToken] at follows
    dsimp only at follows
    rw [if_pos rfl, named.tokens, named.afterToken_skip, text, decoded] at follows
    exact follows

/-- The parser follows the grammar on a message if and only if a plain space, or nothing,
follows its first token `/tool`. -/
theorem tool_command_grammar (json : JsonModule codec dumps) :
    (∀ message : String, strip message ≠ "" →
      (Grammatical codec (strip message) (parseToolCommand codec (strip message)) ↔
        Recognized (strip message))) ∧
    ∀ first name second payload, Separator first → Token name → Separator second →
      (Json.obj payload).wellFormed = true →
      (parseToolCommand codec (command first name second (dumps payload).toList) =
        .ok (some (.ofList name, payload)) ↔ first.head? = some ' ') :=
  ⟨fun message _ => grammatical_iff json.empty (strip message),
    fun _ _ _ _ separator token behind formed =>
      parse_command json separator token behind formed⟩

end Command

/-- A codec that reads and writes JSON as the library does. -/
def sampleCodec : Codec :=
  { loads := Json.loads, dumps := fun payload => (Json.obj payload).dumps
    requestHash := fun message _ _ _ => message, rounded := fun _ => "0.0" }

theorem sampleCodec_json : JsonModule sampleCodec fun payload => (Json.obj payload).dumps where
  empty := @Json.loads_dumps (.obj []) rfl
  decodes _ formed := Json.loads_dumps formed
  opens payload := by rw [Json.dumps, String.toList_ofList, Json.encode]; rfl

/-- A tab after `/tool` sends the command to the model. -/
theorem tab_unrecognized : ¬ ∀ message : String, strip message ≠ "" →
    Grammatical sampleCodec (strip message) (parseToolCommand sampleCodec (strip message)) := by
  intro grammatical
  have recognized := (grammatical_iff sampleCodec_json.empty _).mp
    (grammatical "/tool\tsystem.echo \x7b\x7d" (by decide +kernel))
  exact absurd recognized (by unfold Recognized; decide +kernel)

theorem tool_command_grammar_sample :
    parseToolCommand sampleCodec (command " \t".toList "system.echo".toList "\n".toList
      (Json.obj [("text", .str "a  b")]).dumps.toList) =
        .ok (some ("system.echo", [("text", .str "a  b")])) :=
  ((tool_command_grammar sampleCodec_json).2 " \t".toList "system.echo".toList "\n".toList
    [("text", .str "a  b")] ⟨by decide, by simp [isSpace]⟩ ⟨by decide, by simp [isSpace]⟩
    ⟨by decide, by simp [isSpace]⟩ (by decide)).mpr rfl

end DayuAgent
