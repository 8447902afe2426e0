/-
  Special forms.

  The bodies of a special form are closures, made in a frame that is labelled after the part of the
  form they are, and called as blocks.  When a body is made relative to the evaluation of a condition
  matters, because a closure sees the variables that exist when it is made.
-/
import ValueShell.Eval.Assignment
import ValueShell.Eval.Import

namespace ValueShell

open Eval

namespace Eval

/-- `fn`.  The name is bound before the closure is made, so the closure can call itself. -/
def define (name : String) (body : Lambda) (f : Frame) : Eval Unit := do
  let c ← updateStore fun s =>
    let (c, s) := s.declare (name ++ "~")
    (c, s.bind f.localScope (name ++ "~") c)
  let closure ← close f body true
  ofExcept (← tryCell c fun cell => cell.assign (.function closure))

end Eval

namespace Runner

variable (r : Runner)

/-- Whether every value of a condition is true; no value at all counts as true. -/
def holds (condition : Expr) (f : Frame) : Eval Bool :=
  return (← r.expr condition f).all Value.truthy

/-- The body of a special form, if the form has it. -/
def optionalBlock (body : Option Lambda) (label : String) (f : Frame) : Eval Unit :=
  match body with
  | some body => r.block body label f
  | none => return ()

/-- `if`, from some branch on. -/
def conditional (otherwise : Option Lambda) (f : Frame) : List Branch → Eval Unit
  | [] => r.optionalBlock otherwise "if else" f
  | branch :: rest => do
    if ← r.holds branch.condition (f.labelled "if cond") then r.block branch.body "if body" f
    else conditional otherwise f rest

/-- `while`.  The body is made once, before the condition is evaluated for the first time. -/
def whileLoop (condition : Expr) (body : Lambda) (f : Frame) : Eval Unit := do
  let inside := f.labelled "while"
  let closure ← close inside body false
  r.loop do
    if ← r.holds condition (f.labelled "while cond") then loopBody (r.call closure [] .block inside)
    else return false

/-- `for`.  The iterable is evaluated before the body is made; its elements are those it had then. -/
def forLoop (target : Targets) (iterable : Expr) (body : Lambda) (otherwise : Option Lambda)
    (f : Frame) : Eval Unit := do
  let item ← r.onlyTarget f .onlyOneVariable target
  let v ← r.single "iterable" iterable f
  let inside := f.labelled "for"
  let closure ← close inside body false
  let elements ← (ofExcept v.elements).located (f.site iterable.span)
  if elements.isEmpty then r.optionalBlock otherwise "for else" f
  else
    forEach
      (fun element => do
        item.write element inside
        loopBody (r.call closure [] .block inside))
      elements

/-- The `except` part of a `try`, for an exception. -/
def handle (handler : Handler) (e : Exception) (f : Frame) : Eval Unit := do
  if let some target := handler.target then
    let inside := f.labelled "try except"
    let place ← r.onlyTarget inside .shouldBeOneVariable target
    let id ← updateStore Store.newIdentity
    place.write (.exception id e) inside
  r.block handler.body "try except" f

/-- The body of a `try` with its `except` and `else` parts. -/
def guarded (body : Lambda) (handler : Option Handler) (otherwise : Option Lambda) (f : Frame) :
    Eval Unit := do
  match ← settle (r.block body "try body" f) with
  | .ok () => r.optionalBlock otherwise "try else" f
  | .error (.exception e) =>
    match handler with
    | some handler => r.handle handler e f
    | none => throw (.unwind (.exception e))
  | .error signal => throw (.unwind signal)

/-- `try`.  After a `finally` part that ends normally, an exception is forgotten and a signal is
not. -/
def tryBlock (body : Lambda) (handler : Option Handler) (otherwise finalizer : Option Lambda)
    (f : Frame) : Eval Unit :=
  match finalizer with
  | none => r.guarded body handler otherwise f
  | some finalizer => do
    let outcome ← settle (r.guarded body handler otherwise f)
    r.block finalizer "try finally" f
    match outcome with
    | .error (.signal s) => throw (.unwind (.signal s))
    | _ => return ()

/-- `and` and `or`, from some argument on: the first value whose truth is `stopAt`, or the last value
of all, `last` being the one before these arguments. -/
def connective (stopAt : Bool) (f : Frame) (last : Value) : List Expr → Eval Unit
  | [] => put f.ports last
  | e :: es => do
    let values ← r.expr e f
    match values.find? fun v => v.truthy == stopAt with
    | some v => put f.ports v
    | none => connective stopAt f (values.getLast?.getD last) es

/-- `use`. -/
def useModule (name path : String) (f : Frame) : Eval Unit := do
  let ns ← r.importModule f path
  updateStore fun s =>
    ((), s.bindNew f.localScope (name ++ ":") (.forName (name ++ ":") (.ns ns)))

/-- Removes an element of what a variable holds. -/
def deleteElement (e : ElementTarget) (f : Frame) : Eval Unit := do
  let removing (path : List Value) : Except ElementError Unit → Eval Unit
    | .ok () => return ()
    | .error error =>
      (fault error.fault).located (f.site (e.spanTo (error.level.getD path.length)))
  match f.find? (← get).store e.ns e.name with
  | none => fault (.missingBase (qualifiedName e.ns e.name))
  | some (.environment _) => (fault .notRemovable).located (f.site (e.spanTo 1))
  | some (.cell c) => do
    let path ← r.elementPath f .deletionIndexNotSingle e
    removing path (← tryCell c fun cell => cell.removeElement path)
  | some (.transient v) => do
    let path ← r.elementPath f .deletionIndexNotSingle e
    removing path ((v.removePath path).map fun _ => ())

/-- `del`. -/
def delete (f : Frame) : List Deletion → Eval Unit
  | [] => return ()
  | .localName name :: rest => do
    updateStore fun s => ((), s.unbind f.localScope name)
    delete f rest
  | .environment name :: rest => do
    ofExcept (← tryEnvironment fun e => e.unset name)
    delete f rest
  | .element e :: rest => do
    r.deleteElement e f
    delete f rest

end Runner

end ValueShell
