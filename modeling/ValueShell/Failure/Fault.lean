/-
  What can go wrong while a unit runs.

  A `Fault` is a cause; `Fault.message` is its wording, and `Fault.category` the broad class it
  belongs to.  Faults of compilation are not here: a unit that does not compile never runs.
-/
import ValueShell.Text.Quoted

namespace ValueShell

/-- Broad classes of faults. -/
inductive FaultCategory
  /-- a variable refused a value, or there were too many or too few values -/
  | type
  /-- an unknown variable, namespace, command or module -/
  | resolution
  /-- a signal that nothing absorbed -/
  | escapedSignal
  /-- everything else -/
  | runtime
deriving DecidableEq, Repr, Inhabited

/-- Why an operation failed. -/
inductive Fault
  | shouldBeFunction
  | shouldBeNamespace
  | arityMismatch
  | mustBeOne (what : String) (got : Nat)
  | wrongArgument (want got : String)
  | readOnly
  | variableNotFound (name : String)
  | newVariableNotLocal
  /-- a target that compiled has no variable -/
  | missingBase (name : String)
  | relativeImport
  | importOutsideLibrary
  | moduleNotFound (name path : String)
  | noLibrary
  | commandNotFound (name : String)
  | multipleIndices
  | indexOutOfRange
  | badIndex (index : String)
  | noSuchKey (key : String)
  | notIndexable (kind : String)
  | notAssignable (kind : String)
  | notRemovable
  | notIterable (kind : String)
  | notCallable (value : String)
  | onlyOneVariable
  | shouldBeOneVariable
  | deletionIndexNotSingle
  | badEnvironmentName (name : String)
  | commandFailed (command status : String)
  | commandNotStarted (command reason : String)
  | unreadable (path reason : String)
  | badJson (reason : String)
  /-- a module that does not parse or compile; the message says which -/
  | moduleRejected (message : String)
  /-- raised on purpose -/
  | failed (message : String)
  | returnOutsideFunction
  | breakOutsideLoop
  | continueOutsideLoop
deriving DecidableEq, Repr, Inhabited

namespace Fault

/-- The wording of a fault. -/
def message : Fault → String
  | shouldBeFunction => "should be fn"
  | shouldBeNamespace => "should be ns"
  | arityMismatch => "arity mismatch"
  | mustBeOne what got => s!"{what} must be a single value, got {got}"
  | wrongArgument want got => s!"wrong type of argument: want {want}, got {got}"
  | readOnly => "variable is read-only"
  | variableNotFound name => s!"variable ${name} not found"
  | newVariableNotLocal => "new variables can only be created in local scope"
  | missingBase name => s!"variable ${name} does not exist, compiler bug"
  | relativeImport => "relative use not from a module"
  | importOutsideLibrary => "module outside library directory"
  | moduleNotFound name path => s!"cannot load {name}: {path} does not exist"
  | noLibrary => "evaler does not have a lib directory"
  | commandNotFound name => s!"command not found: {name}"
  | multipleIndices => "multi indexing not implemented"
  | indexOutOfRange => "index out of range"
  | badIndex index => s!"index must be an integer, got {index}"
  | noSuchKey key => s!"no such key: {key}"
  | notIndexable kind => s!"cannot index a {kind}"
  | notAssignable kind => s!"cannot assign to an element of a {kind}"
  | notRemovable => "value does not support element removal"
  | notIterable kind => s!"cannot iterate a {kind}"
  | notCallable value => s!"not callable: {value}"
  | onlyOneVariable => "only one variable allowed"
  | shouldBeOneVariable => "should be one variable"
  | deletionIndexNotSingle => "index must evaluate to a single value in argument to del"
  | badEnvironmentName name => "bad environment variable name " ++ quotedText name
  | commandFailed command status => s!"{command} exited with {status}"
  | commandNotStarted command reason => s!"cannot run {command}: {reason}"
  | unreadable path reason => s!"cannot read {path}: {reason}"
  | badJson reason => s!"bad JSON: {reason}"
  | moduleRejected message => message
  | failed message => message
  | returnOutsideFunction => "return outside a function"
  | breakOutsideLoop => "break outside a loop"
  | continueOutsideLoop => "continue outside a loop"

/-- The class of a fault. -/
def category : Fault → FaultCategory
  | shouldBeFunction | shouldBeNamespace | arityMismatch | mustBeOne .. | wrongArgument ..
  | readOnly => .type
  | variableNotFound .. | newVariableNotLocal | missingBase .. | relativeImport
  | importOutsideLibrary | moduleNotFound .. | noLibrary | commandNotFound .. => .resolution
  | returnOutsideFunction | breakOutsideLoop | continueOutsideLoop => .escapedSignal
  | _ => .runtime

end Fault

end ValueShell
