/-
  What can be wrong with a unit that parses but does not compile.

  Compilation stops at the first problem.  As for syntax, the cause is a value and the wording is in
  `CompileProblem.message`.
-/
import ValueShell.Text.Span

namespace ValueShell

/-- Why a unit does not compile. -/
inductive CompileProblem
  /-- the text of a reference that nothing declares -/
  | variableNotFound (text : String)
  | restParameterNotLast
  /-- an assignment target of another shape -/
  | notATarget
  | indexedTarget
  | restTargetNotLast
  | newVariableNotLocal
  | tooFewArguments
  | tooManyArguments
  | notALambda
  /-- the loop variable of a `for` is written with `@` -/
  | restLoopVariable
  | missingIn
  /-- the variable of an `except` is written with `@` -/
  | restExceptVariable
  | nameNotLiteral
  | missingModule
  | superfluousArguments
  | moduleNotLiteral
  /-- an argument of `del` of another shape -/
  | notDeletable
  | deletionWithDollar
  | deletionWithAt
  | notInLocalScope (name : String)
  | deletionNotLocal
  | noVariable (text : String)
deriving DecidableEq, Repr, Inhabited

/-- The wording of a problem. -/
def CompileProblem.message : CompileProblem → String
  | variableNotFound text => "variable $" ++ text ++ " not found"
  | restParameterNotLast => "only the last parameter may have @"
  | notATarget => "must be an lvalue"
  | indexedTarget => "may not have indices"
  | restTargetNotLast => "only the last lvalue may have @"
  | newVariableNotLocal => "new variables can only be created in local scope"
  | tooFewArguments => "need more arguments"
  | tooManyArguments => "too many arguments"
  | notALambda => "should be a lambda"
  | restLoopVariable => "rest not allowed"
  | missingIn => "should be \"in\""
  | restExceptVariable => "may not use @rest in except variable"
  | nameNotLiteral => "must be a literal string"
  | missingModule => "lack module name"
  | superfluousArguments => "superfluous argument(s)"
  | moduleNotLiteral => "should be a literal string"
  | notDeletable => "arguments to del must be variable or variable elements"
  | deletionWithDollar => "arguments to del must drop $"
  | deletionWithAt => "arguments to del may not have a leading @"
  | notInLocalScope name => "no variable $" ++ name ++ " in local scope"
  | deletionNotLocal => "only variables in local: or E: can be deleted"
  | noVariable text => "no variable $" ++ text

/-- A problem and the region of the code it is about. -/
structure CompileError where
  problem : CompileProblem
  span : Span
deriving DecidableEq, Repr, Inhabited

end ValueShell
