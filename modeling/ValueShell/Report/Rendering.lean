/-
  Reports as text.

      compile error: variable $x not found
       --> [interactive]:1:5
        |
      1 | put $x
        |     ^^

  The excerpt is the line that the region starts on, with carets under the part of the region that is
  on this line.  There is always at least one caret.
-/
import ValueShell.Report.Diagnostic
import ValueShell.Text.LineTable

namespace ValueShell

/-- When reports are colored. -/
inductive ColorMode
  /-- on a terminal only -/
  | auto
  | always
  | never
deriving DecidableEq, Repr, Inhabited

/-- Whether to use colors. -/
def ColorMode.useColors (m : ColorMode) (onTerminal : Bool) : Bool :=
  match m with
  | auto => onTerminal
  | always => true
  | never => false

/-- The colors of reports. -/
inductive Color
  | error
  | warning
  | note
  | secondary
deriving DecidableEq, Repr, Inhabited

namespace Color

/-- The control sequence that switches to a color. -/
def sequence : Color → String
  | error => "\x1b[1;31m"
  | warning => "\x1b[1;33m"
  | note => "\x1b[1;36m"
  | secondary => "\x1b[1;34m"

/-- The control sequence that switches back. -/
def reset : String := "\x1b[0m"

/-- A text in a color, if colors are used. -/
def paint (color : Color) (colors : Bool) (text : String) : String :=
  if colors then color.sequence ++ text ++ reset else text

end Color

/-- The color of a title and of the carets. -/
def Severity.color : Severity → Color
  | warning => .warning
  | _ => .error

/-- `n` blanks. -/
def blanks (n : Nat) : String := String.ofList (List.replicate n ' ')

/-- Where the carets stand under a line: how many blanks come first, and how many carets follow. -/
def caretRange (table : LineTable) (span : Span) : Nat × Nat :=
  let (line, column) := table.position span.start
  let lineLength := (table.lineText line).length
  let start := min (column - 1) lineLength
  let stopColumn :=
    if table.lineOf span.stop = line then (table.position span.stop).2
    else min (lineLength + 1) (UInt32.size - 1)
  (start, max 1 (stopColumn - 1 - start))

/-- The excerpt of a report. -/
def renderExcerpt (colors : Bool) (color : Color) (source : Source) (span : Span) : String :=
  let table := LineTable.build source.code.toList
  let (line, column) := table.position span.start
  let (start, width) := caretRange table span
  let pad := blanks (toString line).length
  let secondary := Color.secondary.paint colors
  secondary (pad ++ "--> ") ++ s!"{source.name}:{line}:{column}\n" ++
    secondary (pad ++ " |") ++ "\n" ++
    secondary (toString line ++ " | ") ++ String.ofList (table.lineText line) ++ "\n" ++
    secondary (pad ++ " | ") ++ blanks start ++
    color.paint colors (String.ofList (List.replicate width '^')) ++ "\n"

namespace Diagnostic

/-- The text of a report. -/
def render (d : Diagnostic) (colors : Bool) : String :=
  let title := d.severity.color.paint colors d.severity.title ++ ": " ++ d.message ++ "\n"
  let excerpt := match d.excerpt with
    | none => ""
    | some (source, span) => renderExcerpt colors d.severity.color source span
  let notes := d.notes.map fun note => Color.note.paint colors "  = note" ++ ": " ++ note ++ "\n"
  title ++ excerpt ++ String.join notes

end Diagnostic

end ValueShell
