/-
  The operation tree: what a unit does once its names are checked.

  An OPERATION is run for its effects; an EXPRESSION is evaluated to any number of values; TARGETS
  are resolved to the places that an assignment writes.  The nodes keep the spans of the syntax they
  come from, and an element target also keeps where each of its brackets stops, so that a failure
  inside it can be blamed on one bracket.

  Bodies of special forms are lambdas by type, not by convention.
-/
import ValueShell.Text.Span
import ValueShell.Operation.Reference

namespace ValueShell

mutual

/-- Run for its effects. -/
inductive Operation
  /-- one after another; the first failure ends the chunk -/
  | chunk (operations : List Operation) (span : Span)
  /-- connected by queues of values, the output of each stage being the input of the next -/
  | pipeline (stages : List Operation) (span : Span)
  | call (head : CallHead) (args : List Expr) (span : Span)
  | assign (targets : Targets) (values : List Expr) (span : Span)
  /-- `if`, with the branches in order -/
  | conditional (branches : List Branch) (otherwise : Option Lambda) (span : Span)
  | whileLoop (condition : Expr) (body : Lambda) (span : Span)
  | forLoop (target : Targets) (iterable : Expr) (body : Lambda) (otherwise : Option Lambda)
      (span : Span)
  | tryBlock (body : Lambda) (handler : Option Handler) (otherwise finalizer : Option Lambda)
      (span : Span)
  /-- `and` stops at the first false value, `or` at the first true one -/
  | connective (stopAt : Bool) (args : List Expr) (span : Span)
  /-- `fn`: binds a function to a name -/
  | define (name : String) (body : Lambda) (span : Span)
  /-- `use`: imports the module at `path` under a name -/
  | useModule (name path : String) (span : Span)
  | delete (targets : List Deletion) (span : Span)

/-- What a call runs. -/
inductive CallHead
  /-- a literal, looked up by name when the call runs -/
  | name (text : String)
  /-- anything else; it has to evaluate to one function -/
  | value (expr : Expr)

/-- A condition of an `if` and the body that belongs to it. -/
structure Branch where
  condition : Expr
  body : Lambda

/-- The `except` part of a `try`, with the target for the exception if it names one. -/
structure Handler where
  target : Option Targets
  body : Lambda

/-- What `del` removes. -/
inductive Deletion
  | localName (name : String)
  | environment (name : String)
  | element (target : ElementTarget)

/-- Evaluated to any number of values. -/
inductive Expr
  | literal (text : String) (span : Span)
  | reference (ref : Reference) (span : Span)
  | index (head : Expr) (brackets : List IndexBracket) (span : Span)
  | list (items : List Expr) (span : Span)
  | map (pairs : List (Expr × Expr)) (span : Span)
  | lambda (lambda : Lambda)
  /-- the output of an operation as values -/
  | capture (operation : Operation) (span : Span)
  /-- concatenation of adjacent parts, for every choice of one value of each -/
  | compound (parts : List Expr) (span : Span)
  /-- all values of all parts, as a braced list has them -/
  | sequence (parts : List Expr) (span : Span)

/-- A function before it closes over its surroundings. -/
structure Lambda where
  params : List String
  /-- takes the arguments that are left over -/
  rest : Option String
  /-- without a signature any number of arguments is accepted -/
  hasSignature : Bool
  body : Operation
  span : Span

/-- The values between one pair of brackets; the span includes the brackets. -/
structure IndexBracket where
  items : List Expr
  span : Span

/-- The left side of an assignment: `x`, `@rest`, `d[k]` or `{a,b,@c}`. -/
structure Targets where
  fixed : List Target
  rest : Option Target
  span : Span

/-- One place an assignment writes. -/
inductive Target
  | named (ns name : String) (span : Span)
  | element (target : ElementTarget)

/-- An element `ns:name[..][..]` of what a variable holds. -/
structure ElementTarget where
  ns : String
  name : String
  brackets : List IndexBracket
  /-- the whole target, brackets included -/
  span : Span
  /-- where the name stops, followed by where each bracket stops -/
  stops : List Nat

end

namespace Operation

/-- The span the operation comes from. -/
def span : Operation → Span
  | chunk _ s | pipeline _ s | call _ _ s | assign _ _ s | conditional _ _ s | whileLoop _ _ s
  | forLoop _ _ _ _ s | tryBlock _ _ _ _ s | connective _ _ s | define _ _ s | useModule _ _ s
  | delete _ s => s

end Operation

namespace Expr

/-- The span the expression comes from. -/
def span : Expr → Span
  | literal _ s | reference _ s | index _ _ s | list _ s | map _ s | capture _ s | compound _ s
  | sequence _ s => s
  | lambda l => l.span

end Expr

namespace Target

/-- The span of the target, brackets included. -/
def span : Target → Span
  | named _ _ s => s
  | element e => e.span

end Target

namespace ElementTarget

/-- The span blamed for a failure at `level`, the 1-based number of a bracket: from the start of the
target to where that bracket stops. -/
def spanTo (e : ElementTarget) (level : Nat) : Span :=
  e.span.withStop (((e.stops[level]?).or e.stops.getLast?).getD e.span.stop)

end ElementTarget

end ValueShell
