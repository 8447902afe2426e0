/-
  Boundaries.

  An unwind leaves one evaluation after the other until one absorbs it.  `break` and `continue` are absorbed
  where they leave a round of a loop, `return` where it leaves the body of a function that was called as a
  command, and every signal where it would leave the code of a module; exceptions are absorbed by `try`.  What a
  condition does, or an iterable, a target or the `else` part of a loop, is not a round of the loop.

  Two forms may put something else in the place of an unwind: a `finally` part that does not end normally, and an
  earlier stage of a pipeline that did not.
-/
import ValueShell.Eval.Nesting
import ValueShell.Session.Basic

namespace ValueShell

/-- The builtin that raises the signal. -/
def Signal.builtin : Signal → Builtin
  | «return» => .return
  | «break» => .break
  | «continue» => .continue

namespace Task

/-- **A round of a loop**: a call of the body of a `while` or a `for`, or a call that `each` makes. -/
inductive Rounds : Task → Task → Prop
  | whileLoop {condition : Expr} {body : Lambda} {span : Span} {f g : Frame} {callable : Callable}
      {args : List Value} {mode : CallMode} :
      Rounds (.operation (.whileLoop condition body span) f) (.call callable args mode g)
  | forLoop {target : Targets} {iterable : Expr} {body : Lambda} {otherwise : Option Lambda} {span : Span}
      {f g : Frame} {callable : Callable} {args : List Value} {mode : CallMode} (part : g.label = "for") :
      Rounds (.operation (.forLoop target iterable body otherwise span) f) (.call callable args mode g)
  | each {inputs args : List Value} {called mode : CallMode} {f g : Frame} {callable : Callable} :
      Rounds (.call (.builtin .each) inputs called f) (.call callable args mode g)

/-- **A boundary for the signal** lies between the two tasks, of which the first runs the second. -/
inductive Bounds : Signal → Task → Task → Prop
  | round {s : Signal} {outer inner : Task} (loop : s ≠ .return) (round : outer.Rounds inner) :
      Bounds s outer inner
  | function {c : Closure} {args : List Value} {f : Frame} {inner : Task} :
      Bounds .return (.call (.closure c) args .command f) inner
  | module {s : Signal} {name path : String} {span : Span} {f : Frame} {inner : Task} :
      Bounds s (.operation (.useModule name path span) f) inner

/-- **The first task absorbs the unwind** of the second one, which it runs. -/
inductive Absorbs : Task → Task → Unwind → Prop
  | signal {s : Signal} {outer inner : Task} (boundary : Bounds s outer inner) :
      Absorbs outer inner (.signal s)
  | caught {body : Lambda} {handler : Handler} {otherwise finalizer : Option Lambda} {span : Span} {f : Frame}
      {inner : Task} {e : Exception} (part : inner.frame.label = "try body") :
      Absorbs (.operation (.tryBlock body (some handler) otherwise finalizer span) f) inner (.exception e)
  | forgotten {body last : Lambda} {handler : Option Handler} {otherwise : Option Lambda} {span : Span}
      {f : Frame} {inner : Task} {e : Exception} (part : inner.frame.label ≠ "try finally") :
      Absorbs (.operation (.tryBlock body handler otherwise (some last) span) f) inner (.exception e)

/-- **An unwind of `other` takes the place** of an unwind of `inner`, where both are run by the first task. -/
inductive Overrides : Task → Task → Task → Prop
  | finalizer {body last : Lambda} {handler : Option Handler} {otherwise : Option Lambda} {span : Span}
      {f : Frame} {other inner : Task} (here : other.frame.label = "try finally")
      (part : inner.frame.label ≠ "try finally") :
      Overrides (.operation (.tryBlock body handler otherwise (some last) span) f) other inner
  | stage {before between after : List Operation} {first later : Operation} {span : Span} {f g h : Frame} :
      Overrides (.operation (.pipeline (before ++ first :: between ++ later :: after) span) f)
        (.operation first g) (.operation later h)

end Task

namespace Evaluation

/-- Each runs the next, from the first evaluation down to the second, over links of one kind. -/
inductive Leads (link : Task → Task → Prop) : Evaluation → Evaluation → Prop
  | here {e : Evaluation} : Leads link e e
  | step {outer next inner : Evaluation} (runs : outer.Runs next) (linked : link outer.task next.task)
      (rest : Leads link next inner) : Leads link outer inner

/-- The second evaluation is somewhere inside the first. -/
abbrev Encloses : Evaluation → Evaluation → Prop := Leads fun _ _ => True

/-- The second evaluation is inside the first, and no boundary for the signal lies between them. -/
abbrev Exposes (s : Signal) : Evaluation → Evaluation → Prop := Leads fun outer inner => ¬Task.Bounds s outer inner

/-- The second evaluation is inside the first, and nothing that lies above it absorbs the unwind. -/
abbrev Passes (u : Unwind) : Evaluation → Evaluation → Prop := Leads fun outer inner => ¬Task.Absorbs outer inner u

/-- What the second evaluation ends with is of no account: something that overrides it fails or raises a signal. -/
def Superseded (outer inner : Evaluation) : Prop :=
  ∃ other u, outer.Runs other ∧ Task.Overrides outer.task other.task inner.task ∧ other.EndsWith u

/-- **What the second evaluation ends with is lost on its way** to the first: it is superseded, or everything ends. -/
def Lost (link : Task → Task → Prop) (outer inner : Evaluation) : Prop :=
  ∃ above below, Leads link outer above ∧ above.Runs below ∧ link above.task below.task ∧ Leads link below inner ∧
    (above.Superseded below ∨ above.IsCutShort)

/-- The signal is lost on its way. -/
abbrev Loses (s : Signal) : Evaluation → Evaluation → Prop := Lost fun outer inner => ¬Task.Bounds s outer inner

/-- It is a call of the builtin that raises the signal. -/
def Raises (e : Evaluation) (s : Signal) : Prop :=
  0 < e.fuel ∧ ∃ mode f, e.task = .call (.builtin s.builtin) [] mode f

/-- **What a boundary makes of the signal** that leaves the second evaluation.  A loop that is broken off does nothing
more, and a loop that is resumed goes on as if the round had ended normally. -/
structure Obeys (s : Signal) (outer inner : Evaluation) : Prop where
  ended : s = .break → outer.task.Rounds inner.task → outer.outcome = (.ok [], inner.outcome.2)
  resumed : s = .continue → outer.task.Rounds inner.task →
    outer.outcome = outer.outcomeIf inner (.ok [], inner.outcome.2)
  completed : s = .return → ∀ c args f, outer.task = .call (.closure c) args .command f →
    outer.outcome = (.ok [], inner.outcome.2)
  escaped : ∀ name path span f, outer.task = .operation (.useModule name path span) f →
    ∃ op g, inner.task = .operation op g ∧
      outer.EndsWith (.exception ⟨s.escaped, some (g.site op.span)⟩)

end Evaluation

namespace Session

/-- The evaluation of the operation of a unit. -/
def evaluation (s : Session) (fuel : Nat) (op : Operation) (source : Source) (ports : Ports) : Evaluation where
  fuel := fuel
  task := .operation op (s.frame source ports (s.world.store.newScope []).1)
  world := { s.world with store := (s.world.store.newScope []).2 }

end Session

end ValueShell
