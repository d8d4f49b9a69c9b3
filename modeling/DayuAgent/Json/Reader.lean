import Mathlib.Data.List.TakeWhile
import DayuAgent.Json

namespace DayuAgent

namespace Json

def isBlank (char : Char) : Bool := char = ' ' ∨ char = '\t' ∨ char = '\n' ∨ char = '\r'

/-- The characters of numbers and of the named constants. -/
def isWordChar (char : Char) : Bool :=
  char.isAlphanum ∨ char = '+' ∨ char = '-' ∨ char = '.'

def isDigits (text : List Char) : Bool := !text.isEmpty && text.all Char.isDigit

/-- The digits before a fraction: no zero leads others. -/
def isWhole (text : List Char) : Bool :=
  isDigits text && (text == ['0'] || text.head? != some '0')

def unsigned : List Char → List Char
  | '-' :: rest => rest
  | text => text

def isExponent : List Char → Bool
  | 'e' :: '+' :: rest | 'E' :: '+' :: rest => isDigits rest
  | 'e' :: rest | 'E' :: rest => isDigits (unsigned rest)
  | _ => false

/-- A fraction, an exponent or both. -/
def isFractional : List Char → Bool
  | '.' :: rest => isDigits (rest.takeWhile Char.isDigit) &&
    ((rest.dropWhile Char.isDigit).isEmpty || isExponent (rest.dropWhile Char.isDigit))
  | text => isExponent text

/-- What `float.__repr__` and the JSON encoder print for a float, and the decoder takes
for one. -/
def isFloat (text : List Char) : Bool :=
  text == "NaN".toList || text == "Infinity".toList || text == "-Infinity".toList ||
    (isWhole ((unsigned text).takeWhile Char.isDigit) &&
      isFractional ((unsigned text).dropWhile Char.isDigit))

def readInt : List Char → Option Int
  | '-' :: digits => if isWhole digits then some (-(Nat.ofDigitChars 10 digits 0)) else none
  | digits => if isWhole digits then some (Nat.ofDigitChars 10 digits 0) else none

/-- A number or a named constant. A float keeps the text that it is read from, where Python
would print the parsed value anew. -/
def readWord (word : List Char) : Option Json :=
  if word = "null".toList then some .null
  else if word = "true".toList then some (.bool true)
  else if word = "false".toList then some (.bool false)
  else if isFloat word then some (.float (.ofList word))
  else (readInt word).map .int

def hexValue (char : Char) : Option Nat :=
  if char.isDigit then some (char.toNat - 48)
  else if 'a' ≤ char ∧ char ≤ 'f' then some (char.toNat - 87)
  else if 'A' ≤ char ∧ char ≤ 'F' then some (char.toNat - 55)
  else none

def readHex (first second third fourth : Char) : Option Nat := do
  let first ← hexValue first
  let second ← hexValue second
  let third ← hexValue third
  let fourth ← hexValue fourth
  return ((first * 16 + second) * 16 + third) * 16 + fourth

/-- `BACKSLASH`: the escapes of one character. -/
def unescape (char : Char) : Option Char :=
  [('\"', '\"'), ('\\', '\\'), ('/', '/'), ('b', '\x08'), ('f', '\x0c'), ('n', '\n'),
    ('r', '\r'), ('t', '\t')].lookup char

def withUnit (unit : Nat) : Option (List Nat × List Char) → Option (List Nat × List Char)
  | some (units, rest) => some (unit :: units, rest)
  | none => none

/-- The code units of a string up to its closing quote. -/
def readUnits : List Char → Option (List Nat × List Char)
  | [] => none
  | '\"' :: rest => some ([], rest)
  | '\\' :: 'u' :: first :: second :: third :: fourth :: rest =>
    match readHex first second third fourth with
    | some unit => withUnit unit (readUnits rest)
    | none => none
  | '\\' :: char :: rest =>
    match unescape char with
    | some char => withUnit char.toNat (readUnits rest)
    | none => none
  | char :: rest => if char.toNat < 0x20 then none else withUnit char.toNat (readUnits rest)

def isHigh (unit : Nat) : Bool := 0xD800 ≤ unit ∧ unit ≤ 0xDBFF

def isLow (unit : Nat) : Bool := 0xDC00 ≤ unit ∧ unit ≤ 0xDFFF

/-- Join the surrogate pairs of a string; what is left is a character each. -/
def readChars : List Nat → Option (List Char)
  | [] => some []
  | high :: low :: rest =>
    if isHigh high && isLow low then
      (readChars rest).map (.ofNat (0x10000 + (high - 0xD800) * 0x400 + (low - 0xDC00)) :: ·)
    else if high.isValidChar then (readChars (low :: rest)).map (.ofNat high :: ·)
    else none
  | [unit] => if unit.isValidChar then some [.ofNat unit] else none

def readString (text : List Char) : Option (String × List Char) := do
  let (units, rest) ← readUnits text
  let chars ← readChars units
  return (.ofList chars, rest)

/-- `dict(pairs)`: a key stays where it first came, with the value that it last had. -/
def dictOf : List (String × Json) → List (String × Json)
  | [] => []
  | (key, value) :: rest =>
    (key, ((dictOf rest).lookup key).getD value) :: (dictOf rest).filter (·.1 ≠ key)

mutual

/-- One value and what follows it; each step of the reader uses up one unit of fuel. -/
def readValue : Nat → List Char → Option (Json × List Char)
  | 0, _ => none
  | fuel + 1, text =>
    match text.dropWhile isBlank with
    | '\"' :: rest => (readString rest).map fun (value, rest) => (.str value, rest)
    | '[' :: rest =>
      match rest.dropWhile isBlank with
      | ']' :: rest => some (.arr [], rest)
      | rest => (readItems fuel rest).map fun (items, rest) => (.arr items, rest)
    | '\x7b' :: rest =>
      match rest.dropWhile isBlank with
      | '\x7d' :: rest => some (.obj [], rest)
      | rest => (readFields fuel rest).map fun (pairs, rest) => (.obj (dictOf pairs), rest)
    | text => (readWord (text.takeWhile isWordChar)).map (·, text.dropWhile isWordChar)

def readItems : Nat → List Char → Option (List Json × List Char)
  | 0, _ => none
  | fuel + 1, text => do
    let (item, rest) ← readValue fuel text
    match rest.dropWhile isBlank with
    | ']' :: rest => return ([item], rest)
    | ',' :: rest =>
      let (items, rest) ← readItems fuel rest
      return (item :: items, rest)
    | _ => none

def readFields : Nat → List Char → Option (List (String × Json) × List Char)
  | 0, _ => none
  | fuel + 1, text =>
    match text.dropWhile isBlank with
    | '\"' :: rest => do
      let (key, rest) ← readString rest
      match rest.dropWhile isBlank with
      | ':' :: rest =>
        let (value, rest) ← readValue fuel rest
        match rest.dropWhile isBlank with
        | '\x7d' :: rest => return ([(key, value)], rest)
        | ',' :: rest =>
          let (fields, rest) ← readFields fuel rest
          return ((key, value) :: fields, rest)
        | _ => none
      | _ => none
    | _ => none

end

/-- `json.loads`: one value and nothing else but white space. -/
def loads (text : String) : Option Json :=
  match readValue text.toList.length text.toList with
  | some (value, rest) => if rest.all isBlank then some value else none
  | none => none

/-- Pairs with different keys are taken as they are. -/
theorem dictOf_distinct {pairs : List (String × Json)} (distinct : (pairs.map Prod.fst).Nodup) :
    dictOf pairs = pairs := by
  induction pairs with
  | nil => rfl
  | cons pair rest ih =>
    obtain ⟨key, value⟩ := pair
    obtain ⟨absent, others⟩ := List.nodup_cons.mp distinct
    have other : ∀ field ∈ rest, field.1 ≠ key := by
      intro field member same
      exact absent (List.mem_map.mpr ⟨field, member, same⟩)
    have missing : rest.lookup key = none := by
      rw [List.lookup_eq_none_iff]
      intro field member
      simpa using (other field member).symm
    rw [dictOf, ih others, missing, Option.getD_none,
      List.filter_eq_self.mpr (by simpa using other)]

private theorem hexValue_digitChar : ∀ value < 16, hexValue (Nat.digitChar value) = some value := by
  decide

theorem isHigh_toNat (char : Char) : isHigh char.toNat = false := by
  have valid : char.toNat.isValidChar := char.valid
  simp only [isHigh, decide_eq_false_iff_not]
  unfold Nat.isValidChar at valid
  omega

private theorem readUnits_escapeChar (char : Char) (rest : List Char) :
    readUnits (escapeChar char ++ rest) = withUnit char.toNat (readUnits rest) := by
  unfold escapeChar
  split_ifs with backslash quote back feed line carriage tab below
  · rw [backslash]
    rfl
  · rw [quote]
    rfl
  · rw [back]
    rfl
  · rw [feed]
    rfl
  · rw [line]
    rfl
  · rw [carriage]
    rfl
  · rw [tab]
    rfl
  · have zero : hexValue '0' = some 0 := rfl
    have high := hexValue_digitChar (char.toNat / 16) (by omega)
    have low := hexValue_digitChar (char.toNat % 16) (by omega)
    have whole : readHex '0' '0' (Nat.digitChar (char.toNat / 16))
        (Nat.digitChar (char.toNat % 16)) = some char.toNat := by
      simp [readHex, zero, high, low]
      omega
    simp only [List.cons_append, List.nil_append, readUnits, whole]
  · simp [readUnits, backslash, below]

private theorem readUnits_flatMap (chars rest : List Char) :
    readUnits (chars.flatMap escapeChar ++ '\"' :: rest) =
      some (chars.map Char.toNat, rest) := by
  induction chars with
  | nil => rfl
  | cons char chars ih =>
    rw [List.flatMap_cons, List.append_assoc, readUnits_escapeChar, ih]
    rfl

private theorem readChars_map : ∀ chars : List Char, readChars (chars.map Char.toNat) = some chars
  | [] => rfl
  | [char] => by
    have valid : char.toNat.isValidChar := char.valid
    simp [readChars, valid, Char.ofNat_toNat]
  | char :: next :: rest => by
    have valid : char.toNat.isValidChar := char.valid
    have others := readChars_map (next :: rest)
    rw [List.map_cons] at others
    simp [readChars, isHigh_toNat, valid, others, Char.ofNat_toNat]

theorem readString_encodeString (text : String) (rest : List Char) :
    readString (text.toList.flatMap escapeChar ++ '\"' :: rest) = some (text, rest) := by
  simp [readString, readUnits_flatMap, readChars_map]

/-- Whatever follows is not part of a word. -/
def Ends (rest : List Char) : Prop := ∀ char ∈ rest.head?, isWordChar char = false

theorem takeWhile_word {word rest : List Char} (all : ∀ char ∈ word, isWordChar char = true)
    (ends : Ends rest) : (word ++ rest).takeWhile isWordChar = word ∧
      (word ++ rest).dropWhile isWordChar = rest := by
  rw [List.takeWhile_append_of_pos all, List.dropWhile_append_of_pos all]
  cases rest with
  | nil => simp
  | cons char rest =>
    have stops := ends char rfl
    simp [stops]

theorem isWordChar_of_isDigit {char : Char} (digit : char.isDigit = true) :
    isWordChar char = true := by
  simp [isWordChar, Char.isAlphanum, digit]

theorem isDigits_all {text : List Char} (digits : isDigits text = true) :
    ∀ char ∈ text, isWordChar char = true := by
  intro char member
  simp only [isDigits, Bool.and_eq_true, List.all_eq_true] at digits
  exact isWordChar_of_isDigit (digits.2 char member)

theorem unsigned_all {text : List Char} (rest : ∀ char ∈ unsigned text, isWordChar char = true) :
    ∀ char ∈ text, isWordChar char = true := by
  unfold unsigned at rest
  split at rest
  · exact List.forall_mem_cons.mpr ⟨rfl, rest⟩
  · exact rest

private theorem isExponent_all {text : List Char} (exponent : isExponent text = true) :
    ∀ char ∈ text, isWordChar char = true := by
  unfold isExponent at exponent
  split at exponent
  · exact List.forall_mem_cons.mpr ⟨rfl, List.forall_mem_cons.mpr ⟨rfl, isDigits_all exponent⟩⟩
  · exact List.forall_mem_cons.mpr ⟨rfl, List.forall_mem_cons.mpr ⟨rfl, isDigits_all exponent⟩⟩
  · exact List.forall_mem_cons.mpr ⟨rfl, unsigned_all (isDigits_all exponent)⟩
  · exact List.forall_mem_cons.mpr ⟨rfl, unsigned_all (isDigits_all exponent)⟩
  · contradiction

theorem digits_all {text : List Char}
    (others : ∀ char ∈ text.dropWhile Char.isDigit, isWordChar char = true) :
    ∀ char ∈ text, isWordChar char = true := by
  intro char member
  have whole : text.takeWhile Char.isDigit ++ text.dropWhile Char.isDigit = text :=
    List.takeWhile_append_dropWhile
  rw [← whole, List.mem_append] at member
  rcases member with digit | other
  · exact isWordChar_of_isDigit (List.mem_takeWhile_imp digit)
  · exact others char other

private theorem isFractional_all {text : List Char} (fractional : isFractional text = true) :
    ∀ char ∈ text, isWordChar char = true := by
  unfold isFractional at fractional
  split at fractional
  · next rest =>
    refine List.forall_mem_cons.mpr ⟨rfl, digits_all ?_⟩
    rw [Bool.and_eq_true, Bool.or_eq_true] at fractional
    rcases fractional.2 with none | exponent
    · rw [List.isEmpty_iff.mp none]
      simp
    · exact isExponent_all exponent
  · exact isExponent_all fractional

theorem isFloat_all {text : List Char} (float : isFloat text = true) :
    ∀ char ∈ text, isWordChar char = true := by
  simp only [isFloat, Bool.or_eq_true, beq_iff_eq, Bool.and_eq_true] at float
  rcases float with ((rfl | rfl) | rfl) | ⟨_, fractional⟩
  · exact List.all_eq_true.mp rfl
  · exact List.all_eq_true.mp rfl
  · exact List.all_eq_true.mp rfl
  · exact unsigned_all (digits_all (isFractional_all fractional))

theorem isWhole_toDigits (value : Nat) : isWhole (Nat.toDigits 10 value) = true := by
  have digits : isDigits (Nat.toDigits 10 value) = true := by
    simp only [isDigits, Bool.and_eq_true, List.all_eq_true]
    refine ⟨by simp [Nat.toDigits_ne_nil], fun char member => ?_⟩
    exact Nat.isDigit_of_mem_toDigits (by decide) (by decide) member
  have leads : ∀ value, 0 < value → (Nat.toDigits 10 value).head? ≠ some '0' := by
    intro value positive
    induction value using Nat.strongRecOn with
    | ind value ih =>
      rcases Nat.lt_or_ge value 10 with small | large
      · rw [Nat.toDigits_of_lt_base small]
        simp
        omega
      · rw [Nat.toDigits_of_base_le (by decide) large, List.head?_append]
        have first := ih (value / 10) (by omega) (by omega)
        cases read : (Nat.toDigits 10 (value / 10)).head? with
        | none => simp [Nat.toDigits_ne_nil] at read
        | some char =>
          rw [read] at first
          exact first
  rw [isWhole, digits]
  rcases Nat.eq_zero_or_pos value with rfl | positive
  · rfl
  · simp [leads value positive]

theorem toString_int (value : Int) : (toString value).toList =
    if 0 ≤ value then Nat.toDigits 10 value.toNat
    else '-' :: Nat.toDigits 10 (-value).toNat := by
  rw [Int.toString_eq_repr, Int.repr_eq_if]
  split <;> simp [String.toList_append]

section Digits

variable {text word : List Char} (digits : ∀ char ∈ text, char.isDigit = true)
  (signed : word = text ∨ word = '-' :: text)

include digits signed

theorem digits_near {first second : Char} {rest : List Char}
    (same : word = first :: second :: rest) : first.isDigit = true ∨ second.isDigit = true := by
  subst same
  rcases signed with rfl | same
  · exact .inl (digits first (List.mem_cons_self ..))
  · cases same
    exact .inr (digits second (List.mem_cons_self ..))

private theorem isFloat_digits : isFloat word = false := by
  have bare : unsigned word = text := by
    rcases signed with rfl | rfl
    · unfold unsigned
      split
      · exact absurd (digits '-' (List.mem_cons_self ..)) (by decide)
      · rfl
    · rfl
  have none : text.dropWhile Char.isDigit = [] := by
    rw [List.dropWhile_eq_nil_iff]
    exact digits
  rw [isFloat, bare, none]
  simp only [isFractional, isExponent, Bool.and_false, Bool.or_false, Bool.or_eq_false_iff,
    beq_eq_false_iff_ne]
  refine ⟨⟨?_, ?_⟩, ?_⟩ <;>
  · intro named
    exact absurd (digits_near digits signed named) (by decide)

private theorem readWord_digits : readWord word = (readInt word).map .int := by
  have null : word ≠ "null".toList := fun same =>
    absurd (digits_near digits signed same) (by decide)
  have yes : word ≠ "true".toList := fun same =>
    absurd (digits_near digits signed same) (by decide)
  have no : word ≠ "false".toList := fun same =>
    absurd (digits_near digits signed same) (by decide)
  rw [readWord, if_neg null, if_neg yes, if_neg no, isFloat_digits digits signed,
    if_neg Bool.false_ne_true]

end Digits

theorem readWord_int (value : Int) : readWord (toString value).toList = some (.int value) := by
  have digits (value : Nat) : ∀ char ∈ Nat.toDigits 10 value, char.isDigit = true :=
    fun char member => Nat.isDigit_of_mem_toDigits (by decide) (by decide) member
  rw [toString_int]
  split
  · next positive =>
    rw [readWord_digits (digits _) (.inl rfl)]
    have bare : readInt (Nat.toDigits 10 value.toNat) = some value := by
      unfold readInt
      split
      · next rest same =>
        exact absurd (digits value.toNat '-' (same ▸ List.mem_cons_self ..)) (by decide)
      · rw [if_pos (isWhole_toDigits _), Nat.ofDigitChars_ten_toDigits,
          Int.toNat_of_nonneg positive]
    rw [bare]
    rfl
  · next negative =>
    rw [readWord_digits (digits _) (.inr rfl), readInt, if_pos (isWhole_toDigits _),
      Nat.ofDigitChars_ten_toDigits]
    have whole : (-((-value).toNat : Int)) = value := by omega
    rw [whole]
    rfl

theorem readWord_float (printed : String) (float : isFloat printed.toList = true) :
    readWord printed.toList = some (.float printed) := by
  have other {named : List Char} (letters : isFloat named = false) : printed.toList ≠ named := by
    intro same
    rw [same, letters] at float
    contradiction
  rw [readWord, if_neg (other rfl), if_neg (other rfl), if_neg (other rfl), if_pos float,
    String.ofList_toList]

theorem toString_int_all (value : Int) :
    ∀ char ∈ (toString value).toList, isWordChar char = true := by
  rw [toString_int]
  split
  · exact isDigits_all (Bool.and_eq_true_iff.mp (isWhole_toDigits _)).1
  · exact List.forall_mem_cons.mpr
      ⟨rfl, isDigits_all (Bool.and_eq_true_iff.mp (isWhole_toDigits _)).1⟩

mutual

/-- Floats are printed as floats, and no object has two fields of one name. -/
def wellFormed : Json → Bool
  | .float printed => isFloat printed.toList
  | .arr items => wellFormedItems items
  | .obj fields => decide (fields.map Prod.fst).Nodup && wellFormedFields fields
  | _ => true

def wellFormedItems : List Json → Bool
  | [] => true
  | item :: rest => wellFormed item && wellFormedItems rest

def wellFormedFields : List (String × Json) → Bool
  | [] => true
  | (_, value) :: rest => wellFormed value && wellFormedFields rest

end

theorem wellFormedItems_iff {items : List Json} :
    wellFormedItems items = true ↔ ∀ item ∈ items, item.wellFormed = true := by
  induction items with
  | nil => simp [wellFormedItems]
  | cons item rest ih => simp [wellFormedItems, ih]

private theorem wellFormedFields_iff {fields : List (String × Json)} :
    wellFormedFields fields = true ↔ ∀ field ∈ fields, field.2.wellFormed = true := by
  induction fields with
  | nil => simp [wellFormedFields]
  | cons field rest ih => simp [wellFormedFields, ih]

theorem wellFormed_obj {fields : List (String × Json)} : (Json.obj fields).wellFormed = true ↔
    (fields.map Prod.fst).Nodup ∧ ∀ field ∈ fields, field.2.wellFormed = true := by
  rw [wellFormed, Bool.and_eq_true, decide_eq_true_iff, wellFormedFields_iff]

/-- The reader starts a value here: no white space and no closing bracket. -/
def Starts (text : List Char) : Prop :=
  ∃ char rest, text = char :: rest ∧ isBlank char = false ∧ char ≠ ']'

theorem starts_word {word : List Char} (nonempty : word ≠ [])
    (all : ∀ char ∈ word, isWordChar char = true) : Starts word := by
  obtain ⟨char, rest, rfl⟩ := List.exists_cons_of_ne_nil nonempty
  have own := all char (List.mem_cons_self ..)
  refine ⟨char, rest, rfl, ?_, ?_⟩
  · by_contra blank
    simp only [isBlank, Bool.not_eq_false, decide_eq_true_iff] at blank
    rcases blank with rfl | rfl | rfl | rfl <;> contradiction
  · rintro rfl
    contradiction

theorem Starts.append {text : List Char} (starts : Starts text) (rest : List Char) :
    (text ++ rest).dropWhile isBlank = text ++ rest := by
  obtain ⟨char, more, rfl, filled, _⟩ := starts
  simp [filled]

theorem isFloat_ne_nil {text : List Char} (float : isFloat text = true) : text ≠ [] := by
  rintro rfl
  contradiction

theorem toString_int_ne_nil (value : Int) : (toString value).toList ≠ [] := by
  rw [toString_int]
  split <;> simp

theorem starts_encode {json : Json} (formed : json.wellFormed = true) : Starts (encode json) := by
  cases json with
  | null => exact ⟨_, _, rfl, rfl, by decide⟩
  | bool value => cases value <;> exact ⟨_, _, rfl, rfl, by decide⟩
  | int value => exact starts_word (toString_int_ne_nil value) (toString_int_all value)
  | float printed =>
    rw [wellFormed] at formed
    exact starts_word (isFloat_ne_nil formed) (isFloat_all formed)
  | str | arr | obj => exact ⟨_, _, rfl, rfl, by decide⟩

private theorem readValue_word {word rest : List Char} (fuel : Nat) (nonempty : word ≠ [])
    (all : ∀ char ∈ word, isWordChar char = true) (ends : Ends rest) :
    readValue (fuel + 1) (word ++ rest) = (readWord word).map (·, rest) := by
  obtain ⟨taken, dropped⟩ := takeWhile_word all ends
  have starts := starts_word nonempty all
  rw [readValue, starts.append]
  obtain ⟨char, more, rfl⟩ := List.exists_cons_of_ne_nil nonempty
  have own := all char (List.mem_cons_self ..)
  split
  · next same =>
    cases same
    contradiction
  · next same =>
    cases same
    contradiction
  · next same =>
    cases same
    contradiction
  · rw [taken, dropped]

/-- The reader takes the text of the value, with fuel for each of its characters. -/
def Reads (json : Json) : Prop :=
  ∀ fuel rest, (encode json).length ≤ fuel → Ends rest →
    readValue fuel (encode json ++ rest) = some (json, rest)

theorem ends_cons {char : Char} {rest : List Char} (other : isWordChar char = false) :
    Ends (char :: rest) := by
  rintro first ⟨⟩
  exact other

theorem reads_word {json : Json} (nonempty : encode json ≠ [])
    (all : ∀ char ∈ encode json, isWordChar char = true)
    (read : readWord (encode json) = some json) : Reads json := by
  intro fuel rest enough ends
  cases fuel with
  | zero => exact absurd (List.length_eq_zero_iff.mp (Nat.le_zero.mp enough)) nonempty
  | succ fuel => rw [readValue_word fuel nonempty all ends, read, Option.map_some]

theorem readItems_joined : ∀ {items : List Json}, items ≠ [] → (∀ item ∈ items, Reads item) →
    ∀ fuel rest, (joined (items.map encode)).length < fuel →
      readItems fuel (joined (items.map encode) ++ ']' :: rest) = some (items, rest)
  | [], nonempty, _, _, _, _ => absurd rfl nonempty
  | [item], _, reads, fuel + 1, rest, enough => by
    have first := reads item (List.mem_singleton_self item) fuel (']' :: rest)
      (Nat.le_of_lt_succ enough) (ends_cons rfl)
    simp [joined, readItems, first, isBlank]
  | item :: next :: more, _, reads, fuel + 1, rest, enough => by
    have bound : (encode item).length + (joined ((next :: more).map encode)).length < fuel := by
      simp only [joined, List.map_cons, List.length_append, List.length_cons] at enough ⊢
      omega
    have first := reads item (List.mem_cons_self ..) fuel
      (',' :: (joined ((next :: more).map encode) ++ ']' :: rest)) (by omega) (ends_cons rfl)
    have others := readItems_joined (List.cons_ne_nil next more)
      (fun item member => reads item (List.mem_cons_of_mem _ member)) fuel rest (by omega)
    simp only [joined, List.map_cons, List.append_assoc, List.cons_append, readItems] at *
    rw [first]
    simp [others, isBlank]

theorem readFields_joined : ∀ {fields : List (String × Json)}, fields ≠ [] →
    (∀ field ∈ fields, Reads field.2) → ∀ fuel rest,
      (joined ((encodeFields fields).map encodeMember)).length < fuel →
      readFields fuel (joined ((encodeFields fields).map encodeMember) ++ '\x7d' :: rest) =
        some (fields, rest)
  | [], nonempty, _, _, _, _ => absurd rfl nonempty
  | [(key, value)], _, reads, fuel + 1, rest, enough => by
    have bound : (encode value).length ≤ fuel := by
      simp only [encodeFields, List.map_cons, List.map_nil, joined, encodeMember,
        List.length_append, List.length_cons] at enough
      omega
    have first := reads _ (List.mem_singleton_self _) fuel ('\x7d' :: rest) bound (ends_cons rfl)
    simp [encodeFields, joined, encodeMember, encodeString, readFields, isBlank,
      readString_encodeString, first]
  | (key, value) :: next :: more, _, reads, fuel + 1, rest, enough => by
    have bound : (encode value).length +
        (joined ((encodeFields (next :: more)).map encodeMember)).length < fuel := by
      simp only [encodeFields, List.map_cons, joined, encodeMember, List.length_append,
        List.length_cons] at enough ⊢
      omega
    have value : Reads value := reads (key, value) (List.mem_cons_self ..)
    have first := value fuel
      (',' :: (joined ((encodeFields (next :: more)).map encodeMember) ++ '\x7d' :: rest))
      (by omega) (ends_cons rfl)
    have others := readFields_joined (List.cons_ne_nil next more)
      (fun field member => reads field (List.mem_cons_of_mem _ member)) fuel rest (by omega)
    simp only [encodeFields, List.map_cons, joined] at first others ⊢
    simp only [encodeMember, encodeString, List.cons_append, List.append_assoc,
      List.nil_append] at first others ⊢
    simp only [readFields, isBlank, Char.reduceEq, or_self, decide_false, Bool.false_eq_true,
      not_false_eq_true, List.dropWhile_cons_of_neg, readString_encodeString,
      Option.pure_def, Option.bind_eq_bind, Option.bind_some]
    rw [first]
    simp [others, isBlank]

private theorem starts_joined {part : List Char} {rest : List (List Char)} (starts : Starts part) :
    Starts (joined (part :: rest)) := by
  obtain ⟨char, more, rfl, filled, other⟩ := starts
  cases rest with
  | nil => exact ⟨char, more, rfl, filled, other⟩
  | cons next rest => exact ⟨char, _, rfl, filled, other⟩

private theorem readValue_items (fuel : Nat) {text : List Char} (starts : Starts text)
    (rest : List Char) : readValue (fuel + 1) ('[' :: (text ++ rest)) =
      (readItems fuel (text ++ rest)).map fun (items, rest) => (.arr items, rest) := by
  change (match (text ++ rest).dropWhile isBlank with
    | ']' :: rest => some (arr [], rest)
    | rest => (readItems fuel rest).map fun (items, rest) => (arr items, rest)) = _
  rw [starts.append]
  obtain ⟨char, more, rfl, _, other⟩ := starts
  split
  · next same =>
    cases same
    contradiction
  · rfl

private theorem readValue_fields (fuel : Nat) (text : List Char) :
    readValue (fuel + 1) ('\x7b' :: '\"' :: text) =
      (readFields fuel ('\"' :: text)).map fun (pairs, rest) => (.obj (dictOf pairs), rest) := rfl

private theorem encode_pos {json : Json} (formed : json.wellFormed = true) :
    0 < (encode json).length := by
  obtain ⟨_, _, same, _⟩ := starts_encode formed
  rw [same]
  exact Nat.succ_pos _

private theorem reads_encode {json : Json} (formed : json.wellFormed = true) : Reads json := by
  induction json with
  | null => exact reads_word (by decide) (List.all_eq_true.mp rfl) rfl
  | bool value => cases value <;> exact reads_word (by decide) (List.all_eq_true.mp rfl) rfl
  | int value =>
    exact reads_word (toString_int_ne_nil value) (toString_int_all value) (readWord_int value)
  | float printed =>
    rw [wellFormed] at formed
    exact reads_word (isFloat_ne_nil formed) (isFloat_all formed) (readWord_float printed formed)
  | str value =>
    intro fuel rest enough _
    obtain ⟨fuel, rfl⟩ := Nat.exists_eq_add_one.mpr ((encode_pos formed).trans_le enough)
    simp [encode, encodeString, readValue, isBlank, readString_encodeString]
  | arr items ih =>
    intro fuel rest enough _
    obtain ⟨fuel, rfl⟩ := Nat.exists_eq_add_one.mpr ((encode_pos formed).trans_le enough)
    rw [wellFormed, wellFormedItems_iff] at formed
    rw [encode, encodeItems_eq] at enough ⊢
    cases items with
    | nil => rfl
    | cons item more =>
      have starts : Starts (joined ((item :: more).map encode)) :=
        starts_joined (starts_encode (formed item (List.mem_cons_self ..)))
      have read := readItems_joined (List.cons_ne_nil item more)
        (fun item member => ih item member (formed item member)) fuel rest
        (by simp only [List.length_append, List.length_cons, List.length_nil] at enough; omega)
      simp only [List.cons_append, List.append_assoc, List.nil_append]
      rw [readValue_items fuel starts, read, Option.map_some]
  | obj fields ih =>
    intro fuel rest enough _
    obtain ⟨fuel, rfl⟩ := Nat.exists_eq_add_one.mpr ((encode_pos formed).trans_le enough)
    obtain ⟨distinct, formed⟩ := wellFormed_obj.mp formed
    rw [encode] at enough ⊢
    cases fields with
    | nil => rfl
    | cons field more =>
      have read := readFields_joined (List.cons_ne_nil field more)
        (fun field member => ih field member (formed field member)) fuel rest
        (by simp only [List.length_append, List.length_cons, List.length_nil] at enough; omega)
      obtain ⟨text, opening⟩ : ∃ text,
          joined ((encodeFields (field :: more)).map encodeMember) = '\"' :: text := by
        cases more <;> exact ⟨_, rfl⟩
      rw [opening] at read ⊢
      simp only [List.cons_append, List.append_assoc, List.nil_append] at read ⊢
      rw [readValue_fields, read, Option.map_some]
      simp only [dictOf_distinct distinct]

/-- What `json.dumps` writes, `json.loads` reads back. -/
theorem loads_dumps {json : Json} (formed : json.wellFormed = true) :
    loads json.dumps = some json := by
  have read := reads_encode formed (encode json).length [] le_rfl (by simp [Ends])
  rw [List.append_nil] at read
  simp [loads, dumps, read]

/-- Nothing below the space. -/
def Printable (text : List Char) : Prop := ∀ char ∈ text, 0x20 ≤ char.toNat

theorem printable_word {word : List Char} (all : ∀ char ∈ word, isWordChar char = true) :
    Printable word := by
  have below : ∀ value < 0x20, isWordChar (Char.ofNat value) = false := by decide
  intro char member
  by_contra small
  have other := below char.toNat (by omega)
  rw [Char.ofNat_toNat, all char member] at other
  contradiction

private theorem printable_escapeChar (char : Char) : Printable (escapeChar char) := by
  have digit : ∀ value < 16, 0x20 ≤ (Nat.digitChar value).toNat := by decide
  have short {mark : Char} (plain : 0x20 ≤ mark.toNat) : Printable ['\\', mark] :=
    List.forall_mem_cons.mpr ⟨by decide, List.forall_mem_singleton.mpr plain⟩
  unfold escapeChar
  split_ifs with backslash quote back feed line carriage tab below
  · exact short (by decide)
  · exact short (by decide)
  · exact short (by decide)
  · exact short (by decide)
  · exact short (by decide)
  · exact short (by decide)
  · exact short (by decide)
  · have high := digit (char.toNat / 16) (by omega)
    have low := digit (char.toNat % 16) (by omega)
    simp [Printable, high, low]
  · simpa [Printable] using below

private theorem printable_encodeString (text : String) : Printable (encodeString text) := by
  intro char member
  simp only [encodeString, List.cons_append, List.mem_cons, List.mem_append, List.mem_flatMap,
    List.not_mem_nil, or_false] at member
  rcases member with rfl | ⟨source, _, inside⟩ | rfl
  · decide
  · exact printable_escapeChar source char inside
  · decide

private theorem printable_joined : ∀ {parts : List (List Char)}, (∀ part ∈ parts, Printable part) →
    Printable (joined parts)
  | [], _ => by simp [joined, Printable]
  | [part], all => all part (List.mem_singleton_self part)
  | part :: next :: rest, all => by
    have first := all part (List.mem_cons_self ..)
    have others : Printable (joined (next :: rest)) :=
      printable_joined fun part member => all part (List.mem_cons_of_mem _ member)
    intro char member
    simp only [joined, List.mem_append, List.mem_cons] at member
    rcases member with inside | rfl | inside
    · exact first char inside
    · decide
    · exact others char inside

private theorem printable_brackets {text : List Char} {opening closing : Char}
    (inside : Printable text)
    (opens : 0x20 ≤ opening.toNat) (closes : 0x20 ≤ closing.toNat) :
    Printable (opening :: text ++ [closing]) := by
  intro char member
  simp only [List.cons_append, List.mem_cons, List.mem_append, List.not_mem_nil, or_false]
    at member
  rcases member with rfl | own | rfl
  · exact opens
  · exact inside char own
  · exact closes

theorem printable_encode {json : Json} (formed : json.wellFormed = true) :
    Printable (encode json) := by
  induction json with
  | null => exact printable_word (List.all_eq_true.mp rfl)
  | bool value => cases value <;> exact printable_word (List.all_eq_true.mp rfl)
  | int value => exact printable_word (toString_int_all value)
  | float printed =>
    rw [wellFormed] at formed
    exact printable_word (isFloat_all formed)
  | str value => exact printable_encodeString value
  | arr items ih =>
    rw [wellFormed, wellFormedItems_iff] at formed
    rw [encode, encodeItems_eq]
    apply printable_brackets _ (by decide) (by decide)
    apply printable_joined
    intro part member
    obtain ⟨item, own, rfl⟩ := List.mem_map.mp member
    exact ih item own (formed item own)
  | obj fields ih =>
    have formed := (wellFormed_obj.mp formed).2
    rw [encode, encodeFields_eq]
    apply printable_brackets _ (by decide) (by decide)
    apply printable_joined
    intro part member
    simp only [List.mem_map] at member
    obtain ⟨_, ⟨field, own, rfl⟩, rfl⟩ := member
    intro char inside
    rcases List.mem_append.mp inside with key | value
    · exact printable_encodeString field.1 char key
    · rcases List.mem_cons.mp value with rfl | value
      · decide
      · exact ih field own (formed field own) char value

end Json

end DayuAgent
