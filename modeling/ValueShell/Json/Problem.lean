/-
  What can be wrong with a JSON text.

  A problem is reported with the number of bytes read up to it.  `JsonError.message` turns that into a
  line and a column; the column counts the bytes of the line, so it is zero right after a newline.
-/
import ValueShell.Text.LineTable

namespace ValueShell

/-- Why a JSON text cannot be read. -/
inductive JsonProblem
  | endOfList
  | endOfObject
  | endOfText
  | endOfValue
  | expectedColon
  | expectedListEnd
  | expectedObjectEnd
  | expectedWord
  | expectedValue
  | invalidEscape
  | invalidNumber
  | numberOutOfRange
  | controlCharacter
  | keyNotText
  | loneSurrogate
  | unfinishedSurrogate
  | trailingComma
  | trailingCharacters
  | tooDeep
deriving DecidableEq, Repr, Inhabited

/-- The wording of a problem. -/
def JsonProblem.message : JsonProblem → String
  | endOfList => "EOF while parsing a list"
  | endOfObject => "EOF while parsing an object"
  | endOfText => "EOF while parsing a string"
  | endOfValue => "EOF while parsing a value"
  | expectedColon => "expected `:`"
  | expectedListEnd => "expected `,` or `]`"
  | expectedObjectEnd => "expected `,` or `\x7d`"
  | expectedWord => "expected ident"
  | expectedValue => "expected value"
  | invalidEscape => "invalid escape"
  | invalidNumber => "invalid number"
  | numberOutOfRange => "number out of range"
  | controlCharacter => "control character (\\u0000-\\u001F) found while parsing a string"
  | keyNotText => "key must be a string"
  | loneSurrogate => "lone leading surrogate in hex escape"
  | unfinishedSurrogate => "unexpected end of hex escape"
  | trailingComma => "trailing comma"
  | trailingCharacters => "trailing characters"
  | tooDeep => "recursion limit exceeded"

/-- A problem, and how many bytes had been read. -/
structure JsonError where
  problem : JsonProblem
  offset : Nat
deriving DecidableEq, Repr, Inhabited

/-- The wording of an error in a text. -/
def JsonError.message (e : JsonError) (text : List Char) : String :=
  let table := LineTable.build text
  let line := table.linesBefore e.offset + 1
  let column := e.offset - (table.lineStart? line).getD 0
  s!"{e.problem.message} at line {line} column {column}"

end ValueShell
