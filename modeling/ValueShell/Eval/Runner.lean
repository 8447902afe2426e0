/-
  The circle of evaluation, cut open.

  Operations contain expressions, expressions contain operations, and calls lead from one closure to
  any other, so evaluation is not by recursion on the tree.  Instead every rule is written against a
  `Runner`: the ways to evaluate whatever is inside.  The rules are then plain functions, and
  `Runner.ofFuel` closes the circle, with one unit of fuel for each level of nesting.
-/
import ValueShell.Eval.Frame

namespace ValueShell

/-- How a function is called. -/
inductive CallMode
  /-- as a command, or by a builtin; `return` ends the call -/
  | command
  /-- as the body of a special form, which every signal passes -/
  | block
deriving DecidableEq, Repr, Inhabited

/-- The ways to evaluate what is inside. -/
structure Runner where
  operation : Operation → Frame → Eval Unit
  expr : Expr → Frame → Eval (List Value)
  call : Callable → List Value → CallMode → Frame → Eval Unit
  /-- takes a step again and again, until it says not to go on -/
  loop : Eval Bool → Eval Unit

namespace Runner

variable (r : Runner)

/-- The values of all expressions, in order. -/
def exprs (f : Frame) : List Expr → Eval (List Value)
  | [] => return []
  | e :: es => do
    let found ← r.expr e f
    return found ++ (← exprs f es)

/-- The single value of an expression; `what` says in a report what it is for. -/
def single (what : String) (e : Expr) (f : Frame) : Eval Value := do
  match ← r.expr e f with
  | [v] => return v
  | found => (Eval.fault (.mustBeOne what found.length)).located (f.site e.span)

/-- The single function of an expression. -/
def callable (e : Expr) (f : Frame) : Eval Callable := do
  match ← r.expr e f with
  | [.function found] => return found
  | [other] => Eval.fault (.notCallable other.repr)
  | found => Eval.fault (.mustBeOne "callable" found.length)

/-- Runs the body of a special form, in a frame with the label of its part. -/
def block (body : Lambda) (label : String) (f : Frame) : Eval Unit := do
  let f := f.labelled label
  let closure ← Eval.close f body false
  r.call closure [] .block f

end Runner

end ValueShell
