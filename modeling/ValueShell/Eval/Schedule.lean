/-
  Schedules.

  The stages of a pipeline are threads, and what they do at the same time may come in any order: which
  of two assignments to one variable is the last, which of two stages begins to load a module and which one
  waits for it.  A SCHEDULE stands for all of this.  It runs the stages, of which it has the code, and it
  lets the others go on when a stage waits; it may look at whatever there is, and nothing is said about it here.

  The evaluator is given its schedule (`Runner.under`).  `Runner.ofFuel` is the evaluator under the
  schedule that runs one stage after the other, each to its end.
-/
import ValueShell.Eval.Run

namespace ValueShell

open Eval

/-- **How the stages of a pipeline run at the same time.** -/
structure Schedule where
  /-- runs the stages of a pipeline, the first of which has the given input -/
  stages : Runner → Frame → Option QueueId → List Operation → Eval Unit
  /-- what goes on while an import of the module at a path waits: other stages take steps until some load
  has ended.  Meanwhile the cache says who waits (`ModuleCache.setWaiting`). -/
  wait : Runner → Frame → String → Eval Unit

namespace Eval

/-- Runs both, the second one first if it goes ahead. -/
def both {α β : Type} (ahead : Bool) (x : Eval α) (y : Eval β) : Eval (α × β) :=
  if ahead then do
    let b ← y
    let a ← x
    return (a, b)
  else do
    let a ← x
    let b ← y
    return (a, b)

end Eval

namespace Schedule

/-- One stage after the other, each to its end; then no import ever waits. -/
def inOrder : Schedule where
  stages := Runner.stages
  wait _ _ _ := throw .blocked

end Schedule

namespace Runner

variable (r : Runner) (schedule : Schedule)

/-- Waits for the module at a path, and asks again after each wait, until an import of it would not wait. -/
def awaitModule (f : Frame) (path : String) : Eval Unit := do
  match (← get).modules.request path f.loading with
  | .busy => do
    schedule.wait r f path
    r.loop do
      match (← get).modules.request path f.loading with
      | .busy => do
        schedule.wait r f path
        return true
      | _ => return false
  | _ => return ()

/-- Waits for the module that the frame's source means by `target`, if it means one. -/
def awaitImport (f : Frame) (target : String) : Eval Unit :=
  match resolvePath f.source target with
  | .ok path => r.awaitModule schedule f path
  | .error _ => return ()

/-- Runs an operation under a schedule. -/
def executeUnder (op : Operation) (f : Frame) : Eval Unit :=
  match op with
  | .pipeline ops span => located (f.site span) (schedule.stages r f f.ports.input ops)
  | .useModule name target span => do
    r.awaitImport schedule f target
    r.execute (.useModule name target span) f
  | op => r.execute op f

/-- **The evaluator under a schedule**, with a bound on the number of evaluations inside each other. -/
def under : Nat → Runner
  | 0 => exhausted
  | fuel + 1 =>
    { operation := fun op f => (under fuel).executeUnder schedule op f
      expr := fun e f => (under fuel).evaluate e f
      call := fun callable args mode f => (under fuel).callFunction callable args mode f
      loop := fun step => do
        if ← step then (under fuel).loop step }

end Runner

end ValueShell
