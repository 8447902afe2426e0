/-
  Operations, and the evaluator as a whole.

  The stages of a pipeline run one after the other here, each to its end, and the values of one wait in a
  queue for the next; for what else may come of stages that run at the same time see Eval/Schedule.  A
  failure of one stage does not keep the later ones from running; the pipeline ends as the first stage
  that did not succeed.
-/
import ValueShell.Eval.Call
import ValueShell.Eval.Expression
import ValueShell.Eval.SpecialForm

namespace ValueShell

open Eval

namespace Runner

variable (r : Runner)

/-- Runs operations in order. -/
def chunk (f : Frame) : List Operation → Eval Unit
  | [] => return ()
  | op :: rest => do
    r.operation op f
    chunk f rest

/-- Runs the stages of a pipeline from some stage on, whose input is `input`. -/
def stages (f : Frame) (input : Option QueueId) : List Operation → Eval Unit
  | [] => return ()
  | [last] => r.operation last (f.withPorts { f.ports with input })
  | stage :: rest => do
    let q ← updateStreams fun s => s.newQueue []
    let outcome ← settle (r.operation stage (f.withPorts ⟨input, .queue q, f.ports.bytes⟩))
    let later ← settle (stages f (some q) rest)
    match outcome with
    | .ok () => resume later
    | .error u => throw (.unwind u)

/-- A call. -/
def callCommand (head : CallHead) (args : List Expr) (f : Frame) : Eval Unit := do
  let callable ← match head with
    | .name name => findCommand f name
    | .value e => r.callable e f
  let values ← r.exprs f args
  r.call callable values .command f

/-- Runs an operation. -/
def execute (op : Operation) (f : Frame) : Eval Unit :=
  located (f.site op.span) <|
    match op with
    | .chunk ops _ => r.chunk f ops
    | .pipeline ops _ => r.stages f f.ports.input ops
    | .call head args _ => r.callCommand head args f
    | .assign targets values _ => r.assign targets values f
    | .conditional branches otherwise _ => r.conditional otherwise f branches
    | .whileLoop condition body _ => r.whileLoop condition body f
    | .forLoop target iterable body otherwise _ => r.forLoop target iterable body otherwise f
    | .tryBlock body handler otherwise finalizer _ => r.tryBlock body handler otherwise finalizer f
    | .connective stopAt args _ => r.connective stopAt f (.bool !stopAt) args
    | .define name body _ => define name body f
    | .useModule name path _ => r.useModule name path f
    | .delete targets _ => r.delete f targets

/-- The runner that has nothing left to run with. -/
def exhausted : Runner :=
  ⟨fun _ _ => throw .outOfFuel, fun _ _ => throw .outOfFuel, fun _ _ _ _ => throw .outOfFuel,
    fun _ => throw .outOfFuel⟩

/-- The evaluator with a bound on the number of evaluations inside each other, where every round of
a loop counts as inside the one before. -/
def ofFuel : Nat → Runner
  | 0 => exhausted
  | fuel + 1 =>
    { operation := fun op f => (ofFuel fuel).execute op f
      expr := fun e f => (ofFuel fuel).evaluate e f
      call := fun callable args mode f => (ofFuel fuel).callFunction callable args mode f
      loop := fun step => do
        if ← step then (ofFuel fuel).loop step }

end Runner

end ValueShell
