/-
  The spans in compiled code.

  Code keeps the spans of the syntax that it comes from, to say where it failed.  The MARKS of an operation or an
  expression are those at which it may place a failure of its own: its own span, those of its targets and brackets,
  and of an element target also the span up to each of its brackets.
-/
import ValueShell.Operation.Code

namespace ValueShell

/-- The targets of an operation. -/
inductive Operation.Assigns : Operation → Targets → Prop
  | assign {targets : Targets} {values : List Expr} {span : Span} :
      Assigns (.assign targets values span) targets
  | forLoop {target : Targets} {iterable : Expr} {body : Lambda} {otherwise : Option Lambda}
      {span : Span} : Assigns (.forLoop target iterable body otherwise span) target
  | handler {target : Targets} {body last : Lambda} {otherwise finalizer : Option Lambda} {span : Span} :
      Assigns (.tryBlock body (some ⟨some target, last⟩) otherwise finalizer span) target

/-- **The spans at which code may place its own failures.** -/
inductive Code.Marks : Code → Span → Prop
  | operation {op : Operation} : Marks (.operation op) op.span
  | expr {e : Expr} : Marks (.expr e) e.span
  | bracket {head : Expr} {brackets : List IndexBracket} {span : Span} {b : IndexBracket}
      (h : b ∈ brackets) : Marks (.expr (.index head brackets span)) b.span
  | target {op : Operation} {targets : Targets} {t : Target} (of : op.Assigns targets)
      (h : t ∈ targets.fixed ++ targets.rest.toList) : Marks (.operation op) t.span
  | element {op : Operation} {targets : Targets} {e : ElementTarget} (of : op.Assigns targets)
      (h : .element e ∈ targets.fixed ++ targets.rest.toList) (level : Nat) :
      Marks (.operation op) (e.spanTo level)
  | deletion {targets : List Deletion} {span : Span} {e : ElementTarget} (h : .element e ∈ targets)
      (level : Nat) : Marks (.operation (.delete targets span)) (e.spanTo level)

end ValueShell
