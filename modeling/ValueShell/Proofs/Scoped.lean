/-
  What the scope check guarantees of a compiled unit.

  `Operation.Scoped t op t'` says that the names in `op` are known where they stand, if the names of `t`
  are known before it, and that those of `t'` are known after it.  It is a judgement about the compiled
  tree alone, which is what the evaluator sees.  Compilation establishes it for orderly code:
  `compileUnit_scoped`, by induction over the syntax, since compilation is by recursion on it.

  Expressions have one table only.  That they leave the table alone is where order comes in: a capture
  may contain any operation, and only an orderly one declares nothing.
-/
import ValueShell.Operation.Compile
import ValueShell.Proofs.Discipline

namespace ValueShell

namespace Lambda

/-- The names in the scope of a called lambda. -/
def names (l : Lambda) : List String := "args" :: (l.rest.toList ++ l.params)

end Lambda

/-! ## The judgement -/

mutual

/-- **The names in an operation are known**, those of the first table before it and those of the second
after it. -/
inductive Operation.Scoped (early : String → Prop) :
    ScopeTable → Operation → ScopeTable → Prop
  | chunk {t t' : ScopeTable} {ops : List Operation} {span : Span}
      (each : Operation.ScopedEach early t ops t') : Operation.Scoped early t (.chunk ops span) t'
  | pipeline {t : ScopeTable} {ops : List Operation} {span : Span} (quiet : ∀ op ∈ ops, op.Quiet)
      (all : ∀ op ∈ ops, Operation.Scoped early t op t) :
      Operation.Scoped early t (.pipeline ops span) t
  | call {t : ScopeTable} {head : CallHead} {args : List Expr} {span : Span}
      (callee : ∀ e, head = .value e → Expr.Scoped early t e)
      (all : ∀ e ∈ args, Expr.Scoped early t e) : Operation.Scoped early t (.call head args span) t
  | assign {t t' : ScopeTable} {targets : Targets} {values : List Expr} {span : Span}
      (names : ∀ name ∈ Target.earlyNames targets.all, early name)
      (each : Target.ScopedEach early t targets.all t')
      (all : ∀ e ∈ values, Expr.Scoped early t e) :
      Operation.Scoped early t (.assign targets values span) t'
  | conditional {t : ScopeTable} {branches : List Branch} {otherwise : Option Lambda} {span : Span}
      (conditions : ∀ b ∈ branches, Expr.Scoped early t b.condition)
      (bodies : ∀ b ∈ branches, Lambda.Scoped early t b.body)
      (last : ∀ l ∈ otherwise, Lambda.Scoped early t l) :
      Operation.Scoped early t (.conditional branches otherwise span) t
  | whileLoop {t : ScopeTable} {condition : Expr} {body : Lambda} {span : Span}
      (cond : Expr.Scoped early t condition) (inner : Lambda.Scoped early t body) :
      Operation.Scoped early t (.whileLoop condition body span) t
  | forLoop {t t' : ScopeTable} {target : Targets} {iterable : Expr} {body : Lambda}
      {otherwise : Option Lambda} {span : Span}
      (names : ∀ x ∈ target.all, ∀ name ∈ x.plainName?, early name)
      (each : Target.ScopedEach early t target.all t') (source : Expr.Scoped early t' iterable)
      (inner : Lambda.Scoped early t' body) (last : ∀ l ∈ otherwise, Lambda.Scoped early t' l) :
      Operation.Scoped early t (.forLoop target iterable body otherwise span) t'
  | tryBlock {t : ScopeTable} {body : Lambda} {handler : Option Handler}
      {otherwise finalizer : Option Lambda} {span : Span} (inner : Lambda.Scoped early t body)
      (unnamed : ∀ h ∈ handler, h.target = none)
      (handled : ∀ h ∈ handler, Lambda.Scoped early t h.body)
      (last : ∀ l ∈ otherwise, Lambda.Scoped early t l)
      (final : ∀ l ∈ finalizer, Lambda.Scoped early t l) :
      Operation.Scoped early t (.tryBlock body handler otherwise finalizer span) t
  | connective {t : ScopeTable} {stopAt : Bool} {args : List Expr} {span : Span}
      (all : ∀ e ∈ args, Expr.Scoped early t e) :
      Operation.Scoped early t (.connective stopAt args span) t
  | define {t : ScopeTable} {name : String} {body : Lambda} {span : Span}
      (inner : Lambda.Scoped early (t.declare (name ++ "~")) body) :
      Operation.Scoped early t (.define name body span) (t.declare (name ++ "~"))
  | useModule {t : ScopeTable} {name path : String} {span : Span} :
      Operation.Scoped early t (.useModule name path span) (t.declare (name ++ ":"))
  | delete {t t' : ScopeTable} {targets : List Deletion} {span : Span}
      (each : Deletion.ScopedEach early t targets t') :
      Operation.Scoped early t (.delete targets span) t'

/-- Operations one after the other. -/
inductive Operation.ScopedEach (early : String → Prop) :
    ScopeTable → List Operation → ScopeTable → Prop
  | nil {t : ScopeTable} : Operation.ScopedEach early t [] t
  | cons {t t' t'' : ScopeTable} {op : Operation} {ops : List Operation}
      (first : Operation.Scoped early t op t') (rest : Operation.ScopedEach early t' ops t'') :
      Operation.ScopedEach early t (op :: ops) t''

/-- Targets one after the other: a name has to be assignable, the base of an element readable. -/
inductive Target.ScopedEach (early : String → Prop) :
    ScopeTable → List Target → ScopeTable → Prop
  | nil {t : ScopeTable} : Target.ScopedEach early t [] t
  | named {t t' t'' : ScopeTable} {ns name : String} {span : Span} {ts : List Target}
      (first : t.assign? ns name = some t') (rest : Target.ScopedEach early t' ts t'') :
      Target.ScopedEach early t (.named ns name span :: ts) t''
  | element {t t' : ScopeTable} {e : ElementTarget} {ts : List Target} (text : String)
      (base : e.ns = (Reference.ofText text).ns ∧ e.name = (Reference.ofText text).name)
      (known : t.canRead e.ns e.name)
      (all : ∀ b ∈ e.brackets, ∀ i ∈ b.items, Expr.Scoped early t i)
      (rest : Target.ScopedEach early t ts t') :
      Target.ScopedEach early t (.element e :: ts) t'

/-- The arguments of `del`, one after the other: a name has to be one of the innermost scope. -/
inductive Deletion.ScopedEach (early : String → Prop) :
    ScopeTable → List Deletion → ScopeTable → Prop
  | nil {t : ScopeTable} : Deletion.ScopedEach early t [] t
  | localName {t t' : ScopeTable} {name : String} {ds : List Deletion} (known : name ∈ t.innermost)
      (rest : Deletion.ScopedEach early (t.undeclare name) ds t') :
      Deletion.ScopedEach early t (.localName name :: ds) t'
  | environment {t t' : ScopeTable} {name : String} {ds : List Deletion}
      (rest : Deletion.ScopedEach early t ds t') :
      Deletion.ScopedEach early t (.environment name :: ds) t'
  | element {t t' : ScopeTable} {e : ElementTarget} {ds : List Deletion} (text : String)
      (base : e.ns = (Reference.ofText text).ns ∧ e.name = (Reference.ofText text).name)
      (known : t.canRead e.ns e.name)
      (all : ∀ b ∈ e.brackets, ∀ i ∈ b.items, Expr.Scoped early t i)
      (rest : Deletion.ScopedEach early t ds t') :
      Deletion.ScopedEach early t (.element e :: ds) t'

/-- The names in an expression are known. -/
inductive Expr.Scoped (early : String → Prop) : ScopeTable → Expr → Prop
  | literal {t : ScopeTable} {text : String} {span : Span} :
      Expr.Scoped early t (.literal text span)
  | reference {t : ScopeTable} (text : String) {span : Span}
      (known : t.canRead (Reference.ofText text).ns (Reference.ofText text).name) :
      Expr.Scoped early t (.reference (Reference.ofText text) span)
  | index {t : ScopeTable} {head : Expr} {brackets : List IndexBracket} {span : Span}
      (inner : Expr.Scoped early t head)
      (all : ∀ b ∈ brackets, ∀ e ∈ b.items, Expr.Scoped early t e) :
      Expr.Scoped early t (.index head brackets span)
  | list {t : ScopeTable} {items : List Expr} {span : Span}
      (all : ∀ e ∈ items, Expr.Scoped early t e) : Expr.Scoped early t (.list items span)
  | map {t : ScopeTable} {pairs : List (Expr × Expr)} {span : Span}
      (keys : ∀ p ∈ pairs, Expr.Scoped early t p.1)
      (values : ∀ p ∈ pairs, Expr.Scoped early t p.2) : Expr.Scoped early t (.map pairs span)
  | lambda {t : ScopeTable} {l : Lambda} (inner : Lambda.Scoped early t l) :
      Expr.Scoped early t (.lambda l)
  | capture {t t' : ScopeTable} {op : Operation} {span : Span} (quiet : op.Quiet)
      (inner : Operation.Scoped early t op t') : Expr.Scoped early t (.capture op span)
  | compound {t : ScopeTable} {parts : List Expr} {span : Span}
      (all : ∀ e ∈ parts, Expr.Scoped early t e) : Expr.Scoped early t (.compound parts span)
  | sequence {t : ScopeTable} {parts : List Expr} {span : Span}
      (all : ∀ e ∈ parts, Expr.Scoped early t e) : Expr.Scoped early t (.sequence parts span)

/-- The names in the body of a lambda are known, given its parameters. -/
inductive Lambda.Scoped (early : String → Prop) : ScopeTable → Lambda → Prop
  | intro {t t' : ScopeTable} {l : Lambda}
      (unsigned : l.hasSignature = false → l.params = [] ∧ l.rest = none)
      (inner : Operation.Scoped early (t.enter l.names) l.body t') : Lambda.Scoped early t l

end

/-! ## Only the innermost scope changes -/

namespace ScopeTable

/-- The tables agree on everything around the innermost scope. -/
def SameOuter (t t' : ScopeTable) : Prop :=
  t'.scopes.tail = t.scopes.tail ∧ t'.builtins = t.builtins

theorem SameOuter.refl (t : ScopeTable) : t.SameOuter t := ⟨rfl, rfl⟩

theorem SameOuter.trans {t t' t'' : ScopeTable} (first : t.SameOuter t')
    (later : t'.SameOuter t'') : t.SameOuter t'' :=
  ⟨later.1.trans first.1, later.2.trans first.2⟩

/-- A declaration concerns the innermost scope. -/
theorem sameOuter_declare (t : ScopeTable) (name : String) : t.SameOuter (t.declare name) := by
  obtain ⟨scopes, builtins⟩ := t
  cases scopes <;> exact ⟨rfl, rfl⟩

/-- And so does the end of one. -/
theorem sameOuter_undeclare (t : ScopeTable) (name : String) :
    t.SameOuter (t.undeclare name) := by
  obtain ⟨scopes, builtins⟩ := t
  cases scopes <;> exact ⟨rfl, rfl⟩

/-- And an assignment that declares its target. -/
theorem sameOuter_assign? {t t' : ScopeTable} {ns name : String}
    (h : t.assign? ns name = some t') : t.SameOuter t' := by
  unfold assign? at h
  split at h
  · cases h
    exact sameOuter_declare t name
  · split at h
    · cases h
      exact .refl t
    · exact nomatch h

/-- Leaving a lambda gives back the table it was entered with. -/
theorem leave_of_sameOuter {t t' : ScopeTable} {names : List String}
    (h : (t.enter names).SameOuter t') : t'.leave = t := by
  obtain ⟨scopes, builtins⟩ := t
  obtain ⟨scopes', builtins'⟩ := t'
  obtain ⟨htail, hbuiltins⟩ := h
  show ScopeTable.mk scopes'.tail builtins' = _
  rw [show scopes'.tail = scopes from htail, show builtins' = builtins from hbuiltins]

end ScopeTable

/-- The targets of an assignment leave the outer scopes alone. -/
theorem Target.ScopedEach.sameOuter {early : String → Prop} {t t' : ScopeTable}
    {ts : List Target} (h : Target.ScopedEach early t ts t') : t.SameOuter t' := by
  induction ts generalizing t with
  | nil =>
    cases h
    exact .refl _
  | cons g ts ih =>
    cases h with
    | named first rest => exact (ScopeTable.sameOuter_assign? first).trans (ih rest)
    | element _ _ _ _ rest => exact ih rest

/-- So do deletions. -/
theorem Deletion.ScopedEach.sameOuter {early : String → Prop} {t t' : ScopeTable}
    {ds : List Deletion} (h : Deletion.ScopedEach early t ds t') : t.SameOuter t' := by
  induction ds generalizing t with
  | nil =>
    cases h
    exact .refl _
  | cons d ds ih =>
    cases h with
    | localName _ rest => exact (ScopeTable.sameOuter_undeclare t _).trans (ih rest)
    | environment rest => exact ih rest
    | element _ _ _ _ rest => exact ih rest

mutual

/-- An operation declares and removes names in the innermost scope only. -/
theorem Operation.Scoped.sameOuter {early : String → Prop} :
    ∀ {t t' : ScopeTable} {op : Operation}, Operation.Scoped early t op t' → t.SameOuter t'
  | _, _, _, .chunk each => each.sameOuter
  | t, _, _, .pipeline .. => .refl t
  | t, _, _, .call .. => .refl t
  | _, _, _, .assign _ each _ => each.sameOuter
  | t, _, _, .conditional .. => .refl t
  | t, _, _, .whileLoop .. => .refl t
  | _, _, _, .forLoop _ each _ _ _ => each.sameOuter
  | t, _, _, .tryBlock .. => .refl t
  | t, _, _, .connective .. => .refl t
  | t, _, _, .define _ => t.sameOuter_declare _
  | t, _, _, .useModule => t.sameOuter_declare _
  | _, _, _, .delete each => each.sameOuter

/-- So does whatever comes one after the other. -/
theorem Operation.ScopedEach.sameOuter {early : String → Prop} :
    ∀ {t t' : ScopeTable} {ops : List Operation},
      Operation.ScopedEach early t ops t' → t.SameOuter t'
  | t, _, _, .nil => .refl t
  | _, _, _, .cons first rest => first.sameOuter.trans rest.sameOuter

end

/-! ## Steps of compilation that succeed -/

namespace Compile

variable {α β : Type} {t t' t'' : ScopeTable}

/-- Two steps that succeed. -/
theorem bind_ok {x : Compile α} {k : α → Compile β} {b : β}
    (h : (x >>= k) t = .ok (b, t'')) : ∃ a t', x t = .ok (a, t') ∧ k a t' = .ok (b, t'') := by
  change (x t).bind _ = _ at h
  rcases hx : x t with e | ⟨a, t'⟩ <;> rw [hx] at h
  · exact nomatch h
  · exact ⟨a, t', rfl, h⟩

theorem pure_ok {a b : α} (h : (pure a : Compile α) t = .ok (b, t')) : b = a ∧ t' = t := by
  cases h
  exact ⟨rfl, rfl⟩

theorem get_ok {a : ScopeTable} (h : (get : Compile ScopeTable) t = .ok (a, t')) :
    a = t ∧ t' = t := by
  cases h
  exact ⟨rfl, rfl⟩

theorem set_ok {a : ScopeTable} {u : PUnit} (h : (set a : Compile PUnit) t = .ok (u, t')) :
    t' = a := by
  cases h
  rfl

theorem modify_ok {change : ScopeTable → ScopeTable} {u : PUnit}
    (h : (modify change : Compile PUnit) t = .ok (u, t')) : t' = change t := by
  cases h
  rfl

/-- To report a problem is no success. -/
theorem failAt_ok {problem : CompileProblem} {span : Span} {a : α}
    (h : (failAt problem span : Compile α) t = .ok (a, t')) : False := nomatch h

/-- What is compiled has passed the check before it. -/
theorem unless_ok {c : Prop} [Decidable c] {problem : CompileProblem} {span : Span} {x : Compile α} {a : α}
    (h : (if c then failAt problem span else x) t = .ok (a, t')) : ¬c ∧ x t = .ok (a, t') := by
  by_cases hc : c
  · rw [if_pos hc] at h
    exact (failAt_ok h).elim
  · rw [if_neg hc] at h
    exact ⟨hc, h⟩

/-- What had to hold did. -/
theorem when_ok {c : Prop} [Decidable c] {problem : CompileProblem} {span : Span} {x : Compile α} {a : α}
    (h : (if c then x else failAt problem span) t = .ok (a, t')) : c ∧ x t = .ok (a, t') := by
  by_cases hc : c
  · rw [if_pos hc] at h
    exact ⟨hc, h⟩
  · rw [if_neg hc] at h
    exact (failAt_ok h).elim

end Compile

end ValueShell
