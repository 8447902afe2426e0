/-
  Leaving an operation early.

  Two kinds of things travel upwards from an operation to whatever contains it.  An EXCEPTION is a
  failure: a fault, with the place it was raised at.  A SIGNAL is `return`, `break` or `continue`,
  which is no failure, and is absorbed by one boundary: a call, or a loop.

  The place of an exception is set by the innermost operation that sees it, and never replaced.
-/
import ValueShell.Failure.Fault
import ValueShell.Text.Source
import ValueShell.Text.Span

namespace ValueShell

/-- The control signals. -/
inductive Signal
  | return
  | break
  | continue
deriving DecidableEq, Repr, Inhabited

namespace Signal

/-- The fault that a signal becomes when nothing absorbs it. -/
def escaped : Signal → Fault
  | .return => .returnOutsideFunction
  | .break => .breakOutsideLoop
  | .continue => .continueOutsideLoop

/-- The name of the signal. -/
def text : Signal → String
  | .return => "return"
  | .break => "break"
  | .continue => "continue"

end Signal

/-- Where an exception was raised. -/
structure Site where
  source : Source
  span : Span
  /-- what was running, e.g. `for` or `try body` -/
  label : String
deriving DecidableEq, Repr, Inhabited

/-- A failure. -/
structure Exception where
  fault : Fault
  site : Option Site
deriving DecidableEq, Repr, Inhabited

/-- Why an operation was left early. -/
inductive Unwind
  | signal (signal : Signal)
  | exception (exception : Exception)
deriving DecidableEq, Repr, Inhabited

namespace Unwind

/-- A failure that has no place yet. -/
def ofFault (fault : Fault) : Unwind := exception ⟨fault, none⟩

/-- Whether this is a failure rather than a signal. -/
def isException : Unwind → Bool
  | signal _ => false
  | exception _ => true

/-- Gives a failure its place, unless it has one already. -/
def located (site : Site) : Unwind → Unwind
  | exception ⟨fault, none⟩ => exception ⟨fault, some site⟩
  | other => other

/-- The exception that an escaping signal or exception is. -/
def toException : Unwind → Exception
  | signal s => ⟨s.escaped, none⟩
  | exception e => e

/-- The name of a signal, or the message of a failure. -/
def text : Unwind → String
  | signal s => s.text
  | exception e => e.fault.message

end Unwind

namespace Exception

/-- The exception with a place: its own, or else the given one. -/
def located (site : Site) (e : Exception) : Exception :=
  { e with site := e.site.or (some site) }

end Exception

end ValueShell
