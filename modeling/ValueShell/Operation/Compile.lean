/-
  Compilation of a syntax tree into an operation tree.

  One pass from top to bottom, by recursion on the tree.  Besides building nodes it keeps the scope
  table, which is the only static check there is: see `ScopeTable`.  Compilation stops at the first
  problem.

  The values of an assignment are compiled before its targets, so that `x = $x` reads the old `x`.
  The special forms are in `SpecialForms`; they receive their arguments as steps not yet taken
  (`arguments`), and so need no part in the recursion.
-/
import ValueShell.Operation.SpecialForms

namespace ValueShell

namespace Compile

/-- The parameters of a lambda, and the rest parameter if the last one has `@`. -/
def signature : List Param → Compile (List String × Option String)
  | [] => return ([], none)
  | p :: ps =>
    match p.name.toList with
    | '@' :: name =>
      if ps.isEmpty then return ([], some (String.ofList name))
      else failAt .restParameterNotLast p.span
    | _ => do
      let (names, rest) ← signature ps
      return (p.name :: names, rest)

/-- A lambda, given the compilation of its body.  The body sees the parameters and `args` in a scope
of its own. -/
def closeOver (params : List Param) (body : Compile Operation) (span : Span) : Compile Lambda := do
  let (names, rest) ← signature params
  modify (ScopeTable.enter · ("args" :: (rest.toList ++ names)))
  let operation ← body
  modify ScopeTable.leave
  return ⟨names, rest, !params.isEmpty, operation, span⟩

/-- A sequence of operations, or the only one of them. -/
def sequence (wrap : List Operation → Span → Operation) (span : Span) :
    List Operation → Operation
  | [only] => only
  | operations => wrap operations span

/-- Whether a braced list of targets holds something that is not one indexing. -/
def misshapen? (items : List Compound) : Option Compound :=
  items.find? fun item => item.indexings.length != 1

/-- A target that is a variable, given that its brackets compile as `brackets`.  The flag says
whether it is written with `@`. -/
def targetOf (i : Indexing) (brackets : Compile (List IndexBracket)) : Compile (Bool × Target) :=
  match i.head.literal? with
  | none => failAt .notATarget i.span
  | some text => do
    let ref := Reference.ofText text
    if ref.name = "" then failAt .notATarget i.span
    else if i.brackets.isEmpty then
      match (← get).assign? ref.ns ref.name with
      | none => failAt .newVariableNotLocal i.span
      | some table => do
        set table
        return (ref.explode, .named ref.ns ref.name i.span)
    else if ref.explode then failAt .indexedTarget i.span
    else if (← get).canRead ref.ns ref.name then
      return (false, .element (.ofIndexing i ref.ns ref.name (← brackets)))
    else failAt (.variableNotFound text) i.head.span

end Compile

open Compile

mutual

/-- Compiles the pipelines of a chunk. -/
def Chunk.compile : Chunk → Compile Operation
  | ⟨pipelines, span⟩ => return .chunk (← compilePipelines pipelines) span

/-- Compiles pipelines in order. -/
def compilePipelines : List Pipeline → Compile (List Operation)
  | [] => return []
  | p :: ps => return (← p.compile) :: (← compilePipelines ps)

/-- Compiles a pipeline; a single form stands for itself. -/
def Pipeline.compile : Pipeline → Compile Operation
  | ⟨forms, span⟩ => return sequence .pipeline span (← compileForms forms)

/-- Compiles forms in order. -/
def compileForms : List Form → Compile (List Operation)
  | [] => return []
  | f :: fs => return (← f.compile) :: (← compileForms fs)

/-- Compiles a form: assignments, a special form, or a call. -/
def Form.compile : Form → Compile Operation
  | .assign assignments span => return sequence .chunk span (← compileAssignments assignments)
  | .command head args span =>
    match head.literal? with
    | some name =>
      match SpecialForm.ofName? name with
      | some form => form.compile head.span.stop span (arguments args)
      | none => return .call (.name name) (← compileCompounds args) span
    | none => do
      let callee ← head.compile
      return .call (.value callee) (← compileCompounds args) span

/-- Compiles assignments in order. -/
def compileAssignments : List Assignment → Compile (List Operation)
  | [] => return []
  | a :: as => return (← a.compile) :: (← compileAssignments as)

/-- Compiles an assignment, its values before its targets. -/
def Assignment.compile : Assignment → Compile Operation
  | ⟨left, right, span⟩ => do
    let values ← compileCompounds right
    return .assign (← left.compileTargets) values span

/-- Compiles the left side of an assignment. -/
def Indexing.compileTargets : Indexing → Compile Targets
  | ⟨.braced items _, brackets, span⟩ =>
    if !brackets.isEmpty then failAt .indexedTarget span
    else
      match misshapen? items with
      | some item => failAt .notATarget item.span
      | none => do
        let (fixed, rest) ← compileTargetItems items
        return ⟨fixed, rest, span⟩
  | ⟨head, brackets, span⟩ => do
    let (explode, target) ← targetOf ⟨head, brackets, span⟩ (compileBrackets brackets)
    return if explode then ⟨[], some target, span⟩ else ⟨[target], none, span⟩

/-- Compiles the targets of a braced list; only the last one may have `@`. -/
def compileTargetItems : List Compound → Compile (List Target × Option Target)
  | [] => return ([], none)
  | ⟨[⟨head, brackets, span⟩], _⟩ :: items => do
    let (explode, target) ← targetOf ⟨head, brackets, span⟩ (compileBrackets brackets)
    if explode then
      if items.isEmpty then return ([], some target) else failAt .restTargetNotLast span
    else do
      let (fixed, rest) ← compileTargetItems items
      return (target :: fixed, rest)
  | item :: _ => failAt .notATarget item.span

/-- The arguments of a special form, with the ways to compile each of them. -/
def arguments : List Compound → List Argument
  | [] => []
  | c :: cs => ⟨c, c.compile, c.compileLambda?, c.targetArgument?⟩ :: arguments cs

/-- The compilation of a compound that is exactly one lambda. -/
def Compound.compileLambda? : Compound → Option (Compile Lambda)
  | ⟨[⟨.lambda params body _, [], _⟩], span⟩ => some (closeOver params body.compile span)
  | _ => none

/-- The compilation, as a target, of a compound that is exactly one indexing. -/
def Compound.targetArgument? : Compound → Option TargetArgument
  | ⟨[⟨head, brackets, span⟩], _⟩ =>
    some ⟨⟨head, brackets, span⟩, Indexing.compileTargets ⟨head, brackets, span⟩,
      compileBrackets brackets⟩
  | _ => none

/-- Compiles compounds in order. -/
def compileCompounds : List Compound → Compile (List Expr)
  | [] => return []
  | c :: cs => return (← c.compile) :: (← compileCompounds cs)

/-- Compiles a compound: nothing is the empty text, one part stands for itself. -/
def Compound.compile : Compound → Compile Expr
  | ⟨[], span⟩ => return .literal "" span
  | ⟨[only], _⟩ => only.compile
  | ⟨parts, span⟩ => return .compound (← compileIndexings parts) span

/-- Compiles indexings in order. -/
def compileIndexings : List Indexing → Compile (List Expr)
  | [] => return []
  | i :: is => return (← i.compile) :: (← compileIndexings is)

/-- Compiles a primary with its brackets. -/
def Indexing.compile : Indexing → Compile Expr
  | ⟨head, [], _⟩ => head.compile
  | ⟨head, brackets, span⟩ => do
    let found ← head.compile
    return .index found (← compileBrackets brackets) span

/-- Compiles brackets in order. -/
def compileBrackets : List Bracket → Compile (List IndexBracket)
  | [] => return []
  | ⟨items, span⟩ :: bs => do
    let found ← compileCompounds items
    return ⟨found, span⟩ :: (← compileBrackets bs)

/-- Compiles a primary. -/
def Primary.compile : Primary → Compile Expr
  | .bareword text span | .singleQuoted text span | .doubleQuoted text span =>
    return .literal text span
  | .reference text span => do
    let ref := Reference.ofText text
    if (← get).canRead ref.ns ref.name then return .reference ref span
    else failAt (.variableNotFound (Reference.shownText text)) span
  | .capture chunk span => return .capture (← chunk.compile) span
  | .list items span => return .list (← compileCompounds items) span
  | .map pairs span => return .map (← compilePairs pairs) span
  | .lambda params body span => return .lambda (← closeOver params body.compile span)
  | .braced items span => return .sequence (← compileCompounds items) span

/-- Compiles the pairs of a map in order, each key before its value. -/
def compilePairs : List MapPair → Compile (List (Expr × Expr))
  | [] => return []
  | ⟨key, value, _⟩ :: ps => do
    let k ← key.compile
    let v ← value.compile
    return (k, v) :: (← compilePairs ps)

end

/-- Compiles a unit in a session that knows the given builtin and global names. -/
def compileUnit (builtins globals : List String) (unit : Chunk) :
    Except CompileError Operation :=
  (unit.compile (ScopeTable.start builtins globals)).map Prod.fst

end ValueShell
