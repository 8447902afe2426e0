/-
  Code that keeps to the order in which it was compiled.

  The scope check is one pass from top to bottom, so what it knows about names is right as long as the
  names are declared in that order when the code runs.  Three things can break the order: an output
  capture, which may be skipped or run in another order than it was compiled; a pipeline, whose stages
  all run although one of them failed; and the variable of an `except`, which exists only after a
  failure.  ORDERLY code declares nothing in such places.

  A name is taken EARLY when the check counts it as declared although nothing was assigned to it yet:
  the variable of a `for`, whose iterable may be empty, and a target of a braced list that has a target
  with brackets after it.  This matters for the names of builtins alone, because any other name is
  declared when its target is resolved.
-/
import ValueShell.Operation.Tree

namespace ValueShell

/-! ## Declarations -/

namespace Operation

/-- The operation declares or removes names in the local scope: an assignment, or several of them,
`for`, `fn`, `use` and `del`. -/
def Declares : Operation → Prop
  | chunk .. | assign .. | forLoop .. | define .. | useModule .. | delete .. => True
  | pipeline .. | call .. | conditional .. | whileLoop .. | tryBlock .. | connective .. => False

end Operation

mutual

/-- **Nothing is declared**, outside of lambdas. -/
inductive Operation.Quiet : Operation → Prop
  | chunk {ops : List Operation} {span : Span} (all : ∀ op ∈ ops, Operation.Quiet op) :
      Operation.Quiet (.chunk ops span)
  | pipeline {ops : List Operation} {span : Span} (all : ∀ op ∈ ops, Operation.Quiet op) :
      Operation.Quiet (.pipeline ops span)
  | call {head : CallHead} {args : List Expr} {span : Span}
      (callee : ∀ e, head = .value e → Expr.Quiet e) (all : ∀ e ∈ args, Expr.Quiet e) :
      Operation.Quiet (.call head args span)
  | conditional {branches : List Branch} {otherwise : Option Lambda} {span : Span}
      (conditions : ∀ b ∈ branches, Expr.Quiet b.condition) :
      Operation.Quiet (.conditional branches otherwise span)
  | whileLoop {condition : Expr} {body : Lambda} {span : Span} (quiet : Expr.Quiet condition) :
      Operation.Quiet (.whileLoop condition body span)
  | tryBlock {body : Lambda} {handler : Option Handler} {otherwise finalizer : Option Lambda}
      {span : Span} : Operation.Quiet (.tryBlock body handler otherwise finalizer span)
  | connective {stopAt : Bool} {args : List Expr} {span : Span}
      (all : ∀ e ∈ args, Expr.Quiet e) : Operation.Quiet (.connective stopAt args span)

/-- Nothing is declared by the captures in an expression, outside of lambdas. -/
inductive Expr.Quiet : Expr → Prop
  | literal {text : String} {span : Span} : Expr.Quiet (.literal text span)
  | reference {ref : Reference} {span : Span} : Expr.Quiet (.reference ref span)
  | index {head : Expr} {brackets : List IndexBracket} {span : Span} (quiet : Expr.Quiet head)
      (all : ∀ b ∈ brackets, ∀ e ∈ b.items, Expr.Quiet e) :
      Expr.Quiet (.index head brackets span)
  | list {items : List Expr} {span : Span} (all : ∀ e ∈ items, Expr.Quiet e) :
      Expr.Quiet (.list items span)
  | map {pairs : List (Expr × Expr)} {span : Span} (keys : ∀ p ∈ pairs, Expr.Quiet p.1)
      (values : ∀ p ∈ pairs, Expr.Quiet p.2) : Expr.Quiet (.map pairs span)
  | lambda {lambda : Lambda} : Expr.Quiet (.lambda lambda)
  | capture {op : Operation} {span : Span} (quiet : Operation.Quiet op) :
      Expr.Quiet (.capture op span)
  | compound {parts : List Expr} {span : Span} (all : ∀ e ∈ parts, Expr.Quiet e) :
      Expr.Quiet (.compound parts span)
  | sequence {parts : List Expr} {span : Span} (all : ∀ e ∈ parts, Expr.Quiet e) :
      Expr.Quiet (.sequence parts span)

end

/-! ## Targets -/

namespace Target

/-- The name of a target that is an unqualified variable. -/
def plainName? : Target → Option String
  | named ns name _ => if ns = "" then some name else none
  | element _ => none

/-- The target has brackets. -/
def isElement : Target → Bool
  | named .. => false
  | element _ => true

/-- The expressions between the brackets of a target. -/
def indices : Target → List Expr
  | named .. => []
  | element e => e.brackets.flatMap IndexBracket.items

/-- The plain names that have a target with brackets after them. -/
def earlyNames : List Target → List String
  | [] => []
  | t :: ts => (if ts.any isElement then t.plainName?.toList else []) ++ earlyNames ts

end Target

namespace Targets

/-- All targets, in order. -/
def all (t : Targets) : List Target := t.fixed ++ t.rest.toList

end Targets

/-! ## Orderly code -/

mutual

/-- **Orderly code**, which takes only names of `early` early: no output capture and no stage of a
pipeline of several declares anything, and no `except` has a variable. -/
inductive Operation.Orderly (early : String → Prop) : Operation → Prop
  | chunk {ops : List Operation} {span : Span} (all : ∀ op ∈ ops, Operation.Orderly early op) :
      Operation.Orderly early (.chunk ops span)
  | pipeline {ops : List Operation} {span : Span} (all : ∀ op ∈ ops, Operation.Orderly early op)
      (stages : 2 ≤ ops.length → ∀ op ∈ ops, ¬op.Declares) :
      Operation.Orderly early (.pipeline ops span)
  | call {head : CallHead} {args : List Expr} {span : Span}
      (callee : ∀ e, head = .value e → Expr.Orderly early e)
      (all : ∀ e ∈ args, Expr.Orderly early e) : Operation.Orderly early (.call head args span)
  | assign {targets : Targets} {values : List Expr} {span : Span}
      (names : ∀ name ∈ Target.earlyNames targets.all, early name)
      (indices : ∀ t ∈ targets.all, ∀ e ∈ t.indices, Expr.Orderly early e)
      (all : ∀ e ∈ values, Expr.Orderly early e) :
      Operation.Orderly early (.assign targets values span)
  | conditional {branches : List Branch} {otherwise : Option Lambda} {span : Span}
      (conditions : ∀ b ∈ branches, Expr.Orderly early b.condition)
      (bodies : ∀ b ∈ branches, Operation.Orderly early b.body.body)
      (last : ∀ l ∈ otherwise, Operation.Orderly early l.body) :
      Operation.Orderly early (.conditional branches otherwise span)
  | whileLoop {condition : Expr} {body : Lambda} {span : Span}
      (cond : Expr.Orderly early condition) (inner : Operation.Orderly early body.body) :
      Operation.Orderly early (.whileLoop condition body span)
  | forLoop {target : Targets} {iterable : Expr} {body : Lambda} {otherwise : Option Lambda}
      {span : Span} (names : ∀ t ∈ target.all, ∀ name ∈ t.plainName?, early name)
      (indices : ∀ t ∈ target.all, ∀ e ∈ t.indices, Expr.Orderly early e)
      (source : Expr.Orderly early iterable) (inner : Operation.Orderly early body.body)
      (last : ∀ l ∈ otherwise, Operation.Orderly early l.body) :
      Operation.Orderly early (.forLoop target iterable body otherwise span)
  | tryBlock {body : Lambda} {handler : Option Handler} {otherwise finalizer : Option Lambda}
      {span : Span} (inner : Operation.Orderly early body.body)
      (unnamed : ∀ h ∈ handler, h.target = none)
      (handled : ∀ h ∈ handler, Operation.Orderly early h.body.body)
      (last : ∀ l ∈ otherwise, Operation.Orderly early l.body)
      (final : ∀ l ∈ finalizer, Operation.Orderly early l.body) :
      Operation.Orderly early (.tryBlock body handler otherwise finalizer span)
  | connective {stopAt : Bool} {args : List Expr} {span : Span}
      (all : ∀ e ∈ args, Expr.Orderly early e) :
      Operation.Orderly early (.connective stopAt args span)
  | define {name : String} {body : Lambda} {span : Span}
      (inner : Operation.Orderly early body.body) :
      Operation.Orderly early (.define name body span)
  | useModule {name path : String} {span : Span} :
      Operation.Orderly early (.useModule name path span)
  | delete {targets : List Deletion} {span : Span}
      (indices : ∀ e, .element e ∈ targets → ∀ b ∈ e.brackets, ∀ i ∈ b.items,
        Expr.Orderly early i) : Operation.Orderly early (.delete targets span)

/-- An expression with orderly code inside. -/
inductive Expr.Orderly (early : String → Prop) : Expr → Prop
  | literal {text : String} {span : Span} : Expr.Orderly early (.literal text span)
  | reference {ref : Reference} {span : Span} : Expr.Orderly early (.reference ref span)
  | index {head : Expr} {brackets : List IndexBracket} {span : Span}
      (inner : Expr.Orderly early head)
      (all : ∀ b ∈ brackets, ∀ e ∈ b.items, Expr.Orderly early e) :
      Expr.Orderly early (.index head brackets span)
  | list {items : List Expr} {span : Span} (all : ∀ e ∈ items, Expr.Orderly early e) :
      Expr.Orderly early (.list items span)
  | map {pairs : List (Expr × Expr)} {span : Span} (keys : ∀ p ∈ pairs, Expr.Orderly early p.1)
      (values : ∀ p ∈ pairs, Expr.Orderly early p.2) : Expr.Orderly early (.map pairs span)
  | lambda {lambda : Lambda} (inner : Operation.Orderly early lambda.body) :
      Expr.Orderly early (.lambda lambda)
  | capture {op : Operation} {span : Span} (inner : Operation.Orderly early op)
      (quiet : op.Quiet) : Expr.Orderly early (.capture op span)
  | compound {parts : List Expr} {span : Span} (all : ∀ e ∈ parts, Expr.Orderly early e) :
      Expr.Orderly early (.compound parts span)
  | sequence {parts : List Expr} {span : Span} (all : ∀ e ∈ parts, Expr.Orderly early e) :
      Expr.Orderly early (.sequence parts span)

end

/-- An expression of orderly code declares nothing, because only a capture could. -/
theorem Expr.Orderly.quiet {early : String → Prop} : ∀ {e : Expr}, e.Orderly early → e.Quiet
  | _, .literal => .literal
  | _, .reference => .reference
  | _, .index inner all => .index inner.quiet fun b hb e he => (all b hb e he).quiet
  | _, .list all => .list fun e he => (all e he).quiet
  | _, .map keys values => .map (fun p hp => (keys p hp).quiet) fun p hp => (values p hp).quiet
  | _, .lambda _ => .lambda
  | _, .capture _ quiet => .capture quiet
  | _, .compound all => .compound fun e he => (all e he).quiet
  | _, .sequence all => .sequence fun e he => (all e he).quiet

/-- An orderly operation that is of no declaring kind declares nothing at all, if pipelines of one
stage do not occur in it. -/
theorem Operation.Orderly.quiet {early : String → Prop} {op : Operation}
    (h : op.Orderly early) (kind : ¬op.Declares) (stages : ∀ ops span, op ≠ .pipeline ops span) :
    op.Quiet := by
  cases h with
  | chunk _ => exact absurd trivial kind
  | pipeline _ _ => exact absurd rfl (stages _ _)
  | call callee all => exact .call (fun e he => (callee e he).quiet) fun e he => (all e he).quiet
  | assign _ _ _ => exact absurd trivial kind
  | conditional conditions _ _ => exact .conditional fun b hb => (conditions b hb).quiet
  | whileLoop cond _ => exact .whileLoop cond.quiet
  | forLoop _ _ _ _ _ => exact absurd trivial kind
  | tryBlock _ _ _ _ _ => exact .tryBlock
  | connective all => exact .connective fun e he => (all e he).quiet
  | define _ => exact absurd trivial kind
  | useModule => exact absurd trivial kind
  | delete _ => exact absurd trivial kind

end ValueShell
