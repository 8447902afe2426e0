/-
  The static scope check.

  While a unit is compiled, a `ScopeTable` says which names exist: one set per lambda that is being
  compiled, the innermost first, the last one holding the globals, and the builtin names.  Reading a
  variable requires that its name is visible; assigning to an unqualified name declares it in the
  innermost scope, so that later reading in the unit finds it.  Qualified names are checked as far as
  their qualifier: whether a namespace has an entry is only known when the unit runs.
-/
import ValueShell.Operation.Problem
import ValueShell.Operation.Reference

namespace ValueShell

/-- The names that are known at a point of a unit. -/
structure ScopeTable where
  /-- of each lambda around the point, the innermost first; the globals come last -/
  scopes : List (List String)
  builtins : List String
deriving DecidableEq, Repr, Inhabited

namespace ScopeTable

/-- The table at the start of a unit. -/
def start (builtins globals : List String) : ScopeTable := ⟨[globals], builtins⟩

/-- The names of the innermost scope. -/
def innermost (t : ScopeTable) : List String := t.scopes.headD []

/-- Whether a scope around the innermost one has the name. -/
def outerHas (t : ScopeTable) (name : String) : Bool := t.scopes.tail.any (·.contains name)

/-- Whether an unqualified name can be read. -/
def visible (t : ScopeTable) (name : String) : Bool :=
  t.scopes.any (·.contains name) || t.builtins.contains name

/-- Whether a qualifier can name a namespace: either as a whole, or the part before its first colon
does and the rest is looked up inside. -/
def namespaceVisible (t : ScopeTable) (ns : String) : Bool :=
  t.visible (ns ++ ":") ||
    ((splitAtFirst ':' ns.toList).map fun (outer, _) =>
      t.visible (String.ofList outer ++ ":")).getD false

/-- Whether the variable `ns:name` can be read. -/
def canRead (t : ScopeTable) (ns name : String) : Bool :=
  match ns with
  | "" => t.visible name
  | "local" => t.innermost.contains name
  | "up" => t.outerHas name
  | "builtin" => t.builtins.contains name
  | "E" | "e" => true
  | _ => t.namespaceVisible ns

/-- Adds a name to the innermost scope. -/
def declare (t : ScopeTable) (name : String) : ScopeTable :=
  match t.scopes with
  | [] => t
  | scope :: outer => { t with scopes := scope.insert name :: outer }

/-- Removes a name from the innermost scope. -/
def undeclare (t : ScopeTable) (name : String) : ScopeTable :=
  match t.scopes with
  | [] => t
  | scope :: outer => { t with scopes := scope.filter (· != name) :: outer }

/-- Enters a lambda whose scope starts with the given names. -/
def enter (t : ScopeTable) (names : List String) : ScopeTable :=
  { t with scopes := names :: t.scopes }

/-- Leaves the innermost lambda. -/
def leave (t : ScopeTable) : ScopeTable := { t with scopes := t.scopes.tail }

/-- The table after an assignment to `ns:name`; none if nothing can be assigned there. -/
def assign? (t : ScopeTable) (ns name : String) : Option ScopeTable :=
  if ns = "" ∨ ns = "local" then some (t.declare name)
  else if t.canRead ns name then some t
  else none

end ScopeTable

/-- A step of compilation: it reads and updates the scope table, and may fail. -/
abbrev Compile (α : Type) := StateT ScopeTable (Except CompileError) α

namespace Compile

/-- Fails with a problem about the given region. -/
def failAt {α : Type} (problem : CompileProblem) (span : Span) : Compile α :=
  throw ⟨problem, span⟩

/-- Adds a name to the innermost scope. -/
def declare (name : String) : Compile Unit := modify (ScopeTable.declare · name)

end Compile

end ValueShell
