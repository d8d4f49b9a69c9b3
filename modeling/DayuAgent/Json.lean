namespace DayuAgent

/-- A float is carried by its printed form; object fields keep their order. -/
inductive Json where
  | null
  | bool (value : Bool)
  | int (value : Int)
  | float (printed : String)
  | str (value : String)
  | arr (items : List Json)
  | obj (fields : List (String × Json))
  deriving Repr

/-- An array is reached from its items and an object from the values of its fields. -/
@[elab_as_elim, induction_eliminator]
theorem Json.induct {motive : Json → Prop} (null : motive .null)
    (bool : ∀ value, motive (.bool value)) (int : ∀ value, motive (.int value))
    (float : ∀ printed, motive (.float printed)) (str : ∀ value, motive (.str value))
    (arr : ∀ items, (∀ item ∈ items, motive item) → motive (.arr items))
    (obj : ∀ fields, (∀ field ∈ fields, motive field.2) → motive (.obj fields))
    (json : Json) : motive json := by
  refine @Json.rec motive (fun items => ∀ item ∈ items, motive item)
    (fun fields => ∀ field ∈ fields, motive field.2) (fun field => motive field.2)
    null bool int float str arr obj ?_ ?_ ?_ ?_ ?_ json
  · simp
  · intro item rest first others
    exact List.forall_mem_cons.mpr ⟨first, others⟩
  · simp
  · intro field rest first others
    exact List.forall_mem_cons.mpr ⟨first, others⟩
  · intro key value held
    exact held

/-- A `dict[str, Any]` value. -/
abbrev JsonObject := List (String × Json)

namespace Json

/-- `ESCAPE_DCT`: quotes, backslashes and what is below the space. -/
def escapeChar (char : Char) : List Char :=
  if char = '\\' then ['\\', '\\']
  else if char = '\"' then ['\\', '\"']
  else if char = '\x08' then ['\\', 'b']
  else if char = '\x0c' then ['\\', 'f']
  else if char = '\n' then ['\\', 'n']
  else if char = '\r' then ['\\', 'r']
  else if char = '\t' then ['\\', 't']
  else if char.toNat < 0x20 then
    ['\\', 'u', '0', '0', Nat.digitChar (char.toNat / 16), Nat.digitChar (char.toNat % 16)]
  else [char]

def encodeString (text : String) : List Char :=
  '\"' :: text.toList.flatMap escapeChar ++ ['\"']

/-- A key with the text of its value. -/
def encodeMember (member : String × List Char) : List Char :=
  encodeString member.1 ++ ':' :: member.2

def joined : List (List Char) → List Char
  | [] => []
  | [part] => part
  | part :: rest => part ++ ',' :: joined rest

mutual

def encode : Json → List Char
  | .null => "null".toList
  | .bool true => "true".toList
  | .bool false => "false".toList
  | .int value => (toString value).toList
  | .float printed => printed.toList
  | .str value => encodeString value
  | .arr items => '[' :: joined (encodeItems items) ++ [']']
  | .obj fields => '\x7b' :: joined ((encodeFields fields).map encodeMember) ++ ['\x7d']

def encodeItems : List Json → List (List Char)
  | [] => []
  | item :: rest => encode item :: encodeItems rest

def encodeFields : List (String × Json) → List (String × List Char)
  | [] => []
  | (key, value) :: rest => (key, encode value) :: encodeFields rest

end

def dumps (json : Json) : String := .ofList (encode json)

theorem encodeItems_eq (items : List Json) : encodeItems items = items.map encode := by
  induction items with
  | nil => rfl
  | cons item rest ih => rw [encodeItems, ih, List.map_cons]

theorem encodeFields_eq (fields : List (String × Json)) :
    encodeFields fields = fields.map fun field => (field.1, encode field.2) := by
  induction fields with
  | nil => rfl
  | cons field rest ih => rw [encodeFields, ih, List.map_cons]

end Json

end DayuAgent
