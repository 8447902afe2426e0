/-
  The lines of a text, as a reader of output sees them.

  A line is ended by a newline, before which one carriage return may stand; neither belongs to the
  line.  A newline at the very end of the text starts no further line, and the empty text has none.
-/
import ValueShell.Text.Split

namespace ValueShell

/-- The text without one `c` at its end. -/
def dropFinal (c : Char) (cs : List Char) : List Char :=
  if cs.getLast? = some c then cs.dropLast else cs

/-- The lines of a text. -/
def textLines (cs : List Char) : List (List Char) :=
  if cs.isEmpty then [] else (splitOn '\n' (dropFinal '\n' cs)).map (dropFinal '\r')

end ValueShell
