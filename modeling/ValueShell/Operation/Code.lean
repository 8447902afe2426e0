/-
  The parts of compiled code, all as one type.

  Operations contain expressions and lambdas, expressions contain operations and lambdas.  What is said of
  ALL the lambdas in some code, however deep, is said of `Code`: which parts it is made of (`children`), which
  are somewhere inside it (`Inside`), and that all lambdas inside it satisfy a predicate (`Each`).
-/
import ValueShell.Operation.Tree

namespace ValueShell

/-- An operation, an expression, or a lambda. -/
inductive Code
  | operation (operation : Operation)
  | expr (expr : Expr)
  | lambda (lambda : Lambda)

/-- The expressions between the brackets. -/
def ElementTarget.indices (e : ElementTarget) : List Expr := e.brackets.flatMap IndexBracket.items

/-- The expressions in a target. -/
def Target.parts : Target → List Expr
  | .named .. => []
  | .element e => e.indices

/-- The expressions in the targets of an assignment. -/
def Targets.parts (t : Targets) : List Expr := (t.fixed ++ t.rest.toList).flatMap Target.parts

/-- The expressions in what is deleted. -/
def Deletion.parts : Deletion → List Expr
  | .localName _ | .environment _ => []
  | .element e => e.indices

/-- The expression that a call runs, unless it is a name. -/
def CallHead.parts : CallHead → List Expr
  | .name _ => []
  | .value e => [e]

namespace Code

/-- The parts of a branch. -/
def ofBranch (b : Branch) : List Code := [expr b.condition, lambda b.body]

/-- The parts of a handler. -/
def ofHandler (h : Handler) : List Code :=
  (h.target.toList.flatMap Targets.parts).map expr ++ [lambda h.body]

/-- What the code is made of. -/
def children : Code → List Code
  | operation (.chunk ops _) | operation (.pipeline ops _) => ops.map operation
  | operation (.call head args _) => (head.parts ++ args).map expr
  | operation (.assign targets values _) => (targets.parts ++ values).map expr
  | operation (.conditional branches otherwise _) =>
    branches.flatMap ofBranch ++ otherwise.toList.map lambda
  | operation (.whileLoop condition body _) => [expr condition, lambda body]
  | operation (.forLoop target iterable body otherwise _) =>
    target.parts.map expr ++ [expr iterable, lambda body] ++ otherwise.toList.map lambda
  | operation (.tryBlock body handler otherwise finalizer _) =>
    lambda body :: handler.toList.flatMap ofHandler ++
      (otherwise.toList ++ finalizer.toList).map lambda
  | operation (.connective _ args _) => args.map expr
  | operation (.define _ body _) => [lambda body]
  | operation (.useModule ..) => []
  | operation (.delete targets _) => (targets.flatMap Deletion.parts).map expr
  | expr (.literal ..) | expr (.reference ..) => []
  | expr (.index head brackets _) => (head :: brackets.flatMap IndexBracket.items).map expr
  | expr (.list items _) => items.map expr
  | expr (.map pairs _) => pairs.flatMap fun (key, value) => [expr key, expr value]
  | expr (.lambda l) => [lambda l]
  | expr (.capture op _) => [operation op]
  | expr (.compound parts _) | expr (.sequence parts _) => parts.map expr
  | lambda l => [operation l.body]

/-- The code is the other one, or somewhere inside it. -/
inductive Inside (c : Code) : Code → Prop
  | self : Inside c c
  | child {d whole : Code} (h : d ∈ whole.children) (inside : Inside c d) : Inside c whole

/-- **Every lambda inside** satisfies the predicate. -/
def Each (P : Lambda → Prop) (c : Code) : Prop := ∀ l, Inside (lambda l) c → P l

variable {P : Lambda → Prop} {c d : Code}

/-- What holds of every lambda inside some code holds of those inside its parts. -/
theorem Each.child (h : c.Each P) (hd : d ∈ c.children) : d.Each P :=
  fun l inside => h l (.child hd inside)

/-- Every lambda inside an operation is inside one of its parts. -/
theorem each_operation {op : Operation} (h : ∀ d ∈ (operation op).children, d.Each P) :
    (operation op).Each P := by
  intro l inside
  cases inside with
  | child hd inside => exact h _ hd l inside

/-- Every lambda inside an expression is inside one of its parts. -/
theorem each_expr {e : Expr} (h : ∀ d ∈ (expr e).children, d.Each P) : (expr e).Each P := by
  intro l inside
  cases inside with
  | child hd inside => exact h _ hd l inside

theorem each_lambda {l : Lambda} (here : P l) (body : (operation l.body).Each P) :
    (lambda l).Each P := by
  intro m inside
  cases inside with
  | self => exact here
  | child hd inside =>
    rw [List.mem_singleton.mp hd] at inside
    exact body m inside

theorem Each.self {l : Lambda} (h : (lambda l).Each P) : P l := h l .self

theorem Each.body {l : Lambda} (h : (lambda l).Each P) : (operation l.body).Each P :=
  h.child List.mem_cons_self

end Code

end ValueShell
