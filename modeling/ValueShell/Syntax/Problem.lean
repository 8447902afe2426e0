/-
  What can be wrong with a text that does not parse.

  Reading stops at the first problem.  The wording is kept apart in `ParseProblem.message`, so that
  statements about the reader speak of causes.
-/
import ValueShell.Text.Quoted
import ValueShell.Text.Span

namespace ValueShell

/-- Syntax that has an opening and a closing delimiter. -/
inductive Construct
  | outputCapture
  | list
  | index
  | map
  | lambda
  | bracedList
  | singleQuoted
  | doubleQuoted
deriving DecidableEq, Repr, Inhabited

/-- The name of the construct in messages. -/
def Construct.text : Construct → String
  | outputCapture => "output capture"
  | list => "list"
  | index => "index"
  | map => "map"
  | lambda => "lambda"
  | bracedList => "braced list"
  | singleQuoted => "single-quoted string"
  | doubleQuoted => "double-quoted string"

/-- Why a text does not parse. -/
inductive ParseProblem
  /-- a character that no rule allows here -/
  | unexpected (c : Char)
  /-- the text ends where something has to follow -/
  | unexpectedEnd
  /-- the closing delimiter is missing -/
  | unterminated (what : Construct)
  /-- assignments followed by a command -/
  | temporaryAssignment
  /-- `=` after a compound that is no target -/
  | badTarget
  /-- `$` without a name -/
  | emptyVariableName
  | badMapPair
  | badParameter
  | invalidEscape
deriving DecidableEq, Repr, Inhabited

/-- The wording of a problem. -/
def ParseProblem.message : ParseProblem → String
  | unexpected c => "unexpected " ++ quotedChar c
  | unexpectedEnd => "unexpected end of code"
  | unterminated what => "unterminated " ++ what.text
  | temporaryAssignment => "temporary assignment is not supported"
  | badTarget => "assignment target must be a single variable or braced list"
  | emptyVariableName => "variable name must not be empty"
  | badMapPair => "map pair must look like &key=value"
  | badParameter => "lambda parameter must be a bareword"
  | invalidEscape => "invalid escape sequence"

/-- A problem and the region of the code it is about. -/
structure ParseError where
  problem : ParseProblem
  span : Span
deriving DecidableEq, Repr, Inhabited

end ValueShell
