/-
  Calls.

  A closure runs in a frame of its own: a fresh local scope with the parameters and `args`, and above
  it the scope the closure captured.  The caller's scopes are not visible, but its ports and its label
  carry over to a block.
-/
import ValueShell.Eval.Builtins

namespace ValueShell

open Eval

/-- The world after a program was run to its end, or could not be started. -/
def World.afterProgram (w : World) : Except StartError Script.ProcessResult → World
  | .error _ => { w with streams := w.streams.pass [] w.streams.input }
  | .ok result =>
    { w with files := result.files, streams := w.streams.pass result.errors result.input }

namespace Eval

/-- Binds parameters to their arguments in a scope. -/
def bindEach (scope : ScopeId) : List String → List Value → Eval Unit
  | name :: names, v :: vs => do
    let c ← updateStore fun s => s.declare name
    ofExcept (← tryCell c fun cell => cell.assign v)
    updateStore fun s => ((), s.bind scope name c)
    bindEach scope names vs
  | _, _ => return ()

/-- Binds the parameters of a lambda that has a signature. -/
def bindParameters (scope : ScopeId) (l : Lambda) (args : List Value) : Eval Unit := do
  let fixed := l.params.length
  match l.rest with
  | none =>
    if args.length = fixed then bindEach scope l.params args else fault .arityMismatch
  | some rest =>
    if fixed ≤ args.length then do
      bindEach scope l.params args
      updateStore fun s => ((), s.bindNew scope rest (.plain (.list (args.drop fixed))))
    else fault .arityMismatch

/-- Binds all that a lambda names from its call, in a fresh scope. -/
def bindArguments (scope : ScopeId) (l : Lambda) (args : List Value) : Eval Unit := do
  if l.hasSignature then bindParameters scope l args
  updateStore fun s => ((), s.bindNew scope "args" (.plain (.list args)))

/-- Runs the next program, which is at a path, to its end. -/
def startProgram (path : String) (words : List String) :
    Eval (Except StartError Script.ProcessResult) := do
  let w ← get
  let ended := Command.start w.streams.programs w.environment w.files path words w.streams.input
  set (w.afterProgram ended)
  return ended

/-- Runs a command of the system to its end. -/
def runExternal (name : String) (args : List Value) (f : Frame) : Eval Unit := do
  let w ← get
  match Command.search? w.environment w.files name with
  | none => fault (.commandNotFound name)
  | some path => do
    let words ← ofExcept (args.mapM Value.toWord)
    match ← startProgram path words with
    | .error e => fault (.commandNotStarted name e.message)
    | .ok result => do
      writeBytes f.ports result.output
      if result.status.isSuccess then return ()
      else fault (.commandFailed name result.status.text)

end Eval

/-- The frame that a closure called from this frame runs in, with the given local scope. -/
def Frame.inside (f : Frame) (c : Closure) (mode : CallMode) (scope : ScopeId) : Frame :=
  { f with
    source := c.source
    localScope := scope
    upScope := c.captured
    label := match mode with
      | .command => "closure"
      | .block => f.label }

namespace Runner

variable (r : Runner)

/-- Runs the body of a closure. -/
def runBody (c : Closure) (mode : CallMode) (f : Frame) : Eval Unit :=
  if c.isFunction || mode == .command then returning (r.operation c.lambda.body f)
  else r.operation c.lambda.body f

/-- Calls a closure. -/
def callClosure (c : Closure) (args : List Value) (mode : CallMode) (f : Frame) : Eval Unit := do
  let scope ← updateStore fun s => s.newScope []
  bindArguments scope c.lambda args
  r.runBody c mode (f.inside c mode scope)

/-- Calls a function. -/
def callFunction (callable : Callable) (args : List Value) (mode : CallMode) (f : Frame) :
    Eval Unit :=
  match callable with
  | .closure c => r.callClosure c args mode f
  | .builtin b => r.builtin b args f
  | .external name => runExternal name args f

end Runner

end ValueShell
