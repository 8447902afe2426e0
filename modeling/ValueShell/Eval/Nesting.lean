/-
  What runs inside what.

  Evaluation is nested: an operation evaluates expressions, an expression may capture the output of an
  operation, a call runs the body of a closure.  A TASK is any of these three, and an `Evaluation` is a task in
  some world, with the fuel that is left for it.

  Which evaluations an evaluation runs is written nowhere, but it can be tried.  Nothing absorbs the
  exit of the program.  So `e` runs `e'` if `e` would exit with the code that `e'` exits with, whatever the
  code is (`Evaluation.Runs`).
-/
import ValueShell.Eval.Run

namespace ValueShell

/-- Something that is evaluated in a frame. -/
inductive Task
  | operation (op : Operation) (f : Frame)
  | expr (e : Expr) (f : Frame)
  | call (callable : Callable) (args : List Value) (mode : CallMode) (f : Frame)

/-- The frame of a task; for a call it is the caller's. -/
def Task.frame : Task → Frame
  | operation _ f | expr _ f | call _ _ _ f => f

/-- It is the end of everything, and nothing absorbs it. -/
def Stop.Final : Stop → Prop
  | unwind _ => False
  | exit _ | blocked | outOfFuel => True

namespace Runner

variable {α : Type}

/-- Runs a task.  Operations and calls have no values. -/
def run (r : Runner) : Task → Eval (List Value)
  | .operation op f => do
    r.operation op f
    return []
  | .expr e f => r.expr e f
  | .call callable args mode f => do
    r.call callable args mode f
    return []

/-- Runs a task by the rule for it, and with the runner what is inside. -/
def perform (r : Runner) : Task → Eval (List Value)
  | .operation op f => do
    r.execute op f
    return []
  | .expr e f => r.evaluate e f
  | .call callable args mode f => do
    r.callFunction callable args mode f
    return []

/-- A unit of fuel is for one level of nesting. -/
theorem run_ofFuel (fuel : Nat) (t : Task) : (ofFuel (fuel + 1)).run t = (ofFuel fuel).perform t := by
  cases t <;> rfl

open Classical in
/-- The runner for which a task has, in the world `v`, another outcome. -/
noncomputable def answering (r : Runner) (t : Task) (v : World)
    (answer : Except Stop (List Value) × World) : Runner where
  operation op f := fun w =>
    if t = .operation op f ∧ v = w then (answer.1.map fun _ => (), answer.2) else r.operation op f w
  expr e f := fun w => if t = .expr e f ∧ v = w then answer else r.expr e f w
  call callable args mode f := fun w =>
    if t = .call callable args mode f ∧ v = w then (answer.1.map fun _ => (), answer.2)
    else r.call callable args mode f w
  loop := r.loop

/-- **What a rule comes to**: from `w`, it runs the task in the world `v`.  If that exited, so would the rule. -/
def Comes (rule : Runner → Eval α) (r : Runner) (w : World) (t : Task) (v : World) : Prop :=
  ∀ code, (rule (r.answering t v (.error (.exit code), v)) w).1 = .error (.exit code)

end Runner

/-- A task in a world, with the fuel that is left for it. -/
structure Evaluation where
  fuel : Nat
  task : Task
  world : World

namespace Evaluation

/-- What it ends with. -/
def outcome (e : Evaluation) : Except Stop (List Value) × World :=
  (Runner.ofFuel e.fuel).run e.task e.world

/-- What it would end with if the evaluation `inner`, which it runs, had another outcome. -/
noncomputable def outcomeIf (e inner : Evaluation) (answer : Except Stop (List Value) × World) :
    Except Stop (List Value) × World :=
  ((Runner.ofFuel inner.fuel).answering inner.task inner.world answer).perform e.task e.world

/-- **The one evaluation runs the other.** -/
def Runs (e inner : Evaluation) : Prop :=
  e.fuel = inner.fuel + 1 ∧
    Runner.Comes (fun r => r.perform e.task) (.ofFuel inner.fuel) e.world inner.task inner.world

/-- It ends with a failure or a signal. -/
def EndsWith (e : Evaluation) (u : Unwind) : Prop := e.outcome.1 = .error (.unwind u)

/-- It ends because everything does: the program exits, or the evaluation is cut off. -/
def IsCutShort (e : Evaluation) : Prop := ∃ stop, e.outcome.1 = .error stop ∧ stop.Final

end Evaluation

end ValueShell
