/-
  JSON documents as values.

  Texts, numbers and `null` become texts, arrays lists and objects maps; of equal keys the last one
  counts.  A text may hold several documents one after the other.  A number, `true`, `false` or `null`
  has to be set off from what follows; the other documents show their end themselves.

  Nesting is limited: `value depth` reads at most `depth` arrays and objects inside each other, and is
  defined by recursion on that number.
-/
import ValueShell.Json.Scalar
import ValueShell.Value.Basic

namespace ValueShell

namespace JsonReader

open TextReader

/-- The items of an array after its bracket, each read by `item`. -/
def listItems (limit : Nat) (item : JsonReader Value) : JsonReader (List Value) := do
  skipBlank
  match ← peek? with
  | none => failNext .endOfList
  | some ']' => do
    advance
    return []
  | some _ => do
    let first ← item
    let more ← repeated limit do
      skipBlank
      match ← peek? with
      | none => failNext .endOfList
      | some ']' => do
        advance
        return .stop
      | some ',' => do
        advance
        skipBlank
        match ← peek? with
        | none => failNext .endOfValue
        | some ']' => failNext .trailingComma
        | some _ => return .more (← item)
      | some _ => failNext .expectedListEnd
    return first :: more

/-- A key with its value, with the cursor on the quote of the key. -/
def entry (limit : Nat) (item : JsonReader Value) : JsonReader (String × Value) := do
  let key ← string limit
  skipBlank
  match ← peek? with
  | none => failNext .endOfObject
  | some ':' => do
    advance
    return (key, ← item)
  | some _ => failNext .expectedColon

/-- The entries of an object after its brace, in the order of the text. -/
def objectEntries (limit : Nat) (item : JsonReader Value) :
    JsonReader (List (String × Value)) := do
  skipBlank
  match ← peek? with
  | none => failNext .endOfObject
  | some '\x7d' => do
    advance
    return []
  | some '"' => do
    let first ← entry limit item
    let more ← repeated limit do
      skipBlank
      match ← peek? with
      | none => failNext .endOfObject
      | some '\x7d' => do
        advance
        return .stop
      | some ',' => do
        advance
        skipBlank
        match ← peek? with
        | none => failNext .endOfValue
        | some '\x7d' => failNext .trailingComma
        | some '"' => return .more (← entry limit item)
        | some _ => failNext .keyNotText
      | some _ => failNext .expectedObjectEnd
    return first :: more
  | some _ => failNext .keyNotText

/-- A value, given how what is nested in it is read; none if nothing more may be nested. -/
def valueWith (limit : Nat) (nested : Option (JsonReader Value)) : JsonReader Value := do
  skipBlank
  match ← peek? with
  | none => failNext .endOfValue
  | some 'n' => do
    word "null".toList
    return .text ""
  | some 't' => do
    word "true".toList
    return .bool true
  | some 'f' => do
    word "false".toList
    return .bool false
  | some '-' => do
    advance
    return .text (← number true)
  | some '"' => return .text (← string limit)
  | some '[' =>
    match nested with
    | none => failNext .tooDeep
    | some item => do
      advance
      return .list (← listItems limit item)
  | some '\x7b' =>
    match nested with
    | none => failNext .tooDeep
    | some item => do
      advance
      return .map (Table.ofList (← objectEntries limit item))
  | some c => if c.isDigit then return .text (← number false) else failNext .expectedValue

/-- A value with at most `depth` arrays and objects inside each other. -/
def value (limit : Nat) : Nat → JsonReader Value
  | 0 => valueWith limit none
  | depth + 1 => valueWith limit (some (value limit depth))

/-- How deep arrays and objects may be nested. -/
def depthLimit : Nat := 127

/-- Whether a document that starts with `c` shows its own end. -/
def isDelimited (c : Char) : Bool := c == '[' || c == '"' || c == '\x7b'

/-- Whether `c` may follow a document that does not show its own end. -/
def endsValue (c : Char) : Bool :=
  isBlank c || ['"', '[', ']', '\x7b', '\x7d', ',', ':'].contains c

/-- The next document, if there is one. -/
def document? (limit : Nat) : JsonReader (Option Value) := do
  skipBlank
  match ← peek? with
  | none => return none
  | some first => do
    let found ← value limit depthLimit
    if !isDelimited first then
      match ← peek? with
      | none => return some found
      | some c => if endsValue c then return some found else failNext .trailingCharacters
    else return some found

/-- The documents from a place on, up to the first one that cannot be read. -/
def documentsFrom (limit : Nat) : Nat → Cursor → List Value × Option (ReadStop JsonError)
  | 0, _ => ([], some .exhausted)
  | turns + 1, cursor =>
    match document? limit cursor with
    | .error stop => ([], some stop)
    | .ok (none, _) => ([], none)
    | .ok (some v, after) =>
      let (more, stop) := documentsFrom limit turns after
      (v :: more, stop)

end JsonReader

/-- The documents of a text, and why there are no more if the text goes on. -/
def readJson (text : List Char) : List Value × Option (ReadStop JsonError) :=
  JsonReader.documentsFrom (text.length + 1) (text.length + 2) (Cursor.start text)

end ValueShell
