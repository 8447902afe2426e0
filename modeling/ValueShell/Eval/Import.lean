/-
  Imports.

  An import asks the cache for the module at its path.  If nobody has loaded it yet, the module's code
  runs in a frame of its own, with a fresh namespace as local scope and nothing above it, so it sees
  nothing of its importer.  The entry of the module is there before its code starts and is settled
  when the code ends: loaded, or gone.
-/
import ValueShell.Eval.Runner
import ValueShell.Module.Path
import ValueShell.Operation.Compile
import ValueShell.Syntax.Grammar

namespace ValueShell

open Eval

/-- The exception that an escaping failure or signal is, placed at `site` if it has no place. -/
def escapingException (site : Site) (u : Unwind) : Exception := u.toException.located site

namespace Eval

/-- The cache of modules after a change. -/
def updateModules (change : ModuleCache → ModuleCache) : Eval Unit :=
  modify fun w => { w with modules := change w.modules }

/-- The operation of a module's source, or the fault of a module that is no program. -/
def compileModule (builtins : List String) (source : Source) : Eval Operation :=
  match readChunk source.code with
  | .error .exhausted => throw .outOfFuel
  | .error (.problem e) =>
    fault (.moduleRejected (source.path ++ ": parse error: " ++ e.problem.message))
  | .ok chunk =>
    match compileUnit builtins [] chunk with
    | .error e => fault (.moduleRejected (source.path ++ ": compile error: " ++ e.problem.message))
    | .ok op => return op

/-- Ends as `x` does, with a signal or a failure turned into an exception that has a place. -/
def enclosed {α : Type} (site : Site) (x : Eval α) : Eval α :=
  x.mapStop fun
    | .unwind u => .unwind (.exception (escapingException site u))
    | other => other

end Eval

/-- The frame that the code of a module runs in, with its namespace as local scope and a scope without
names above it. -/
def Frame.ofModule (f : Frame) (source : Source) (path : String) (ns nothing : ScopeId) : Frame :=
  { setting := f.setting, source, localScope := ns, upScope := nothing, ports := f.ports,
    label := "module", loading := f.loading ++ [path] }

namespace Runner

variable (r : Runner)

/-- Runs the code of a module, which fills the namespace. -/
def runModule (f : Frame) (source : Source) (path : String) (ns : ScopeId) (op : Operation) :
    Eval Unit := do
  let nothing ← updateStore fun s => s.newScope []
  let inside := f.ofModule source path ns nothing
  note (.running path op)
  (r.operation op inside).enclosed (inside.site op.span)

/-- Finds the module at a path and runs its code. -/
def load (f : Frame) (path : String) (ns : ScopeId) : Eval Unit := do
  let w ← get
  let source ← ofExcept (f.setting.library.findSource w.files path)
  let op ← compileModule (w.store.names f.setting.builtins) source
  r.runModule f source path ns op

/-- Loads the module at a path for the first time, or again after a failure. -/
def loadNew (f : Frame) (path : String) : Eval ScopeId := do
  let ns ← updateStore fun s => s.newScope []
  updateModules fun cache => Table.insert cache path (.loading ns [])
  match ← settle (r.load f path ns) with
  | .ok () => do
    updateModules fun cache => Table.insert cache path (.loaded ns)
    note (.loaded path)
    return ns
  | .error u => do
    updateModules fun cache => Table.erase cache path
    note (.failed path)
    throw (.unwind u)

/-- The namespace of the module at a path, from the cache or from a new load. -/
def fetchModule (f : Frame) (path : String) : Eval ScopeId := do
  match (← get).modules.request path f.loading with
  | .finished ns | .unfinished ns => return ns
  | .busy => throw .blocked
  | .absent => r.loadNew f path

/-- The namespace of the module that the frame's source means by `target`. -/
def importModule (f : Frame) (target : String) : Eval ScopeId := do
  let path ← ofExcept (resolvePath f.source target)
  let ns ← r.fetchModule f path
  note (.imported path ns)
  return ns

end Runner

end ValueShell
