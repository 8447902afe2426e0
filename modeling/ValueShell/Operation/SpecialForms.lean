/-
  Compilation of the special forms.

  The arguments of a special form are syntax: bodies have to be written as lambdas, keywords such as
  `elif` and `in` are matched literally, and names are declared while compiling.

      if c { } [elif c { }]... [else { }]            while c { }
      for x in iterable { } [else { }]               and a b...      or a b...
      try { } [except [e] { }] [else { }] [finally { }]
      fn name { }                                    use a/b         del x E:Y d[k]...

  A form here sees its arguments as `Argument`s: each offers the ways in which it may be compiled,
  as steps not yet taken.  What order they are taken in is part of the form, because every step may
  declare names that the later ones read.
-/
import ValueShell.Operation.ScopeTable
import ValueShell.Operation.Tree
import ValueShell.Syntax.Tree

namespace ValueShell

/-- An argument that is one indexing, and what it compiles to as a target. -/
structure TargetArgument where
  indexing : Indexing
  targets : Compile Targets
  brackets : Compile (List IndexBracket)

/-- An argument of a special form, and the ways to compile it. -/
structure Argument where
  compound : Compound
  expr : Compile Expr
  /-- present if the argument is exactly one lambda -/
  lambda? : Option (Compile Lambda)
  /-- present if the argument is exactly one indexing -/
  target? : Option TargetArgument

namespace Argument

/-- The span of the argument. -/
def span (a : Argument) : Span := a.compound.span

/-- Whether the argument is the literal `word`. -/
def isWord (a : Argument) (word : String) : Bool := a.compound.literal? == some word

/-- The argument compiled as a lambda, which it must be. -/
def body (a : Argument) : Compile Lambda :=
  match a.lambda? with
  | some lambda => lambda
  | none => Compile.failAt .notALambda a.span

end Argument

/-- The target that the brackets of an indexing make of the variable `ns:name`. -/
def ElementTarget.ofIndexing (i : Indexing) (ns name : String) (brackets : List IndexBracket) :
    ElementTarget :=
  ⟨ns, name, brackets, i.span, i.head.span.stop :: brackets.map fun b => b.span.stop⟩

namespace SpecialForm

open Compile

/-- The expressions of all arguments, in order. -/
def exprs : List Argument → Compile (List Expr)
  | [] => return []
  | a :: rest => return (← a.expr) :: (← exprs rest)

/-- The next argument, with what follows it; `stop` is where the form stops. -/
def next (stop : Nat) : List Argument → Compile (Argument × List Argument)
  | [] => failAt .tooFewArguments (Span.point stop)
  | a :: rest => return (a, rest)

/-- The next argument as a lambda. -/
def nextBody (stop : Nat) (args : List Argument) : Compile (Lambda × List Argument) := do
  let (a, rest) ← next stop args
  return (← a.body, rest)

/-- `word { }`, if the next argument is `word`. -/
def bodyAfter (word : String) (stop : Nat) :
    List Argument → Compile (Option Lambda × List Argument)
  | [] => return (none, [])
  | a :: rest => do
    if a.isWord word then
      let (body, rest) ← nextBody stop rest
      return (some body, rest)
    else return (none, a :: rest)

/-- Fails if arguments are left over. -/
def nothingElse : List Argument → Compile Unit
  | [] => return ()
  | first :: rest =>
    failAt .tooManyArguments (((rest.getLast?).map fun last => first.span.merge last.span).getD
      first.span)

/-- The branches of an `if`, each a condition and a body, with what follows the last of them. -/
def branches (stop : Nat) : List Argument → Compile (List Branch × List Argument)
  | [] => failAt .tooFewArguments (Span.point stop)
  | first :: rest => do
    let condition ← first.expr
    match rest with
    | [] => failAt .tooFewArguments (Span.point stop)
    | second :: rest => do
      let branch : Branch := ⟨condition, ← second.body⟩
      match rest with
      | [] => return ([branch], [])
      | word :: rest =>
        if word.isWord "elif" then do
          let (others, rest) ← branches stop rest
          return (branch :: others, rest)
        else return ([branch], word :: rest)

/-- `if`. -/
def compileIf (span : Span) (args : List Argument) : Compile Operation := do
  let (found, rest) ← branches span.stop args
  let (otherwise, rest) ← bodyAfter "else" span.stop rest
  nothingElse rest
  return .conditional found otherwise span

/-- `while`. -/
def compileWhile (span : Span) (args : List Argument) : Compile Operation := do
  let (first, rest) ← next span.stop args
  let condition ← first.expr
  let (body, rest) ← nextBody span.stop rest
  nothingElse rest
  return .whileLoop condition body span

/-- `for`.  The loop variable is a single target without `@`. -/
def compileFor (span : Span) (args : List Argument) : Compile Operation := do
  let (first, rest) ← next span.stop args
  match first.target? with
  | none => failAt .notATarget first.span
  | some argument => do
    let target ← argument.targets
    match target.rest with
    | some extra => failAt .restLoopVariable extra.span
    | none =>
      match rest with
      | [] => failAt .missingIn (Span.point span.stop)
      | word :: rest =>
        if !word.isWord "in" then failAt .missingIn word.span
        else do
          let (source, rest) ← next span.stop rest
          let iterable ← source.expr
          let (body, rest) ← nextBody span.stop rest
          let (otherwise, rest) ← bodyAfter "else" span.stop rest
          nothingElse rest
          return .forLoop target iterable body otherwise span

/-- The variable of an `except`: an argument that starts with a bareword and is one indexing. -/
def exceptTarget : List Argument → Compile (Option Targets × List Argument)
  | [] => return (none, [])
  | a :: rest =>
    match a.target? with
    | none => return (none, a :: rest)
    | some argument => do
      if argument.indexing.head.bareword?.isNone then return (none, a :: rest)
      else
        let target ← argument.targets
        match target.rest with
        | some extra => failAt .restExceptVariable extra.span
        | none => return (some target, rest)

/-- The `except` part of a `try`, if the next argument is `except`. -/
def exceptPart (stop : Nat) : List Argument → Compile (Option Handler × List Argument)
  | [] => return (none, [])
  | word :: rest => do
    if word.isWord "except" then
      let (target, rest) ← exceptTarget rest
      let (body, rest) ← nextBody stop rest
      return (some ⟨target, body⟩, rest)
    else return (none, word :: rest)

/-- `try`. -/
def compileTry (span : Span) (args : List Argument) : Compile Operation := do
  let (body, rest) ← nextBody span.stop args
  let (handler, rest) ← exceptPart span.stop rest
  let (otherwise, rest) ← bodyAfter "else" span.stop rest
  let (finalizer, rest) ← bodyAfter "finally" span.stop rest
  nothingElse rest
  return .tryBlock body handler otherwise finalizer span

/-- `fn`.  The name is declared before the body is compiled, so that the body can call it. -/
def compileFn (span : Span) (args : List Argument) : Compile Operation := do
  let (first, rest) ← next span.stop args
  match first.compound.literal? with
  | none => failAt .nameNotLiteral first.span
  | some name => do
    declare (name ++ "~")
    let (body, rest) ← nextBody span.stop rest
    nothingElse rest
    return .define name body span

/-- The name a module is imported under: what follows the last slash of its specification. -/
def importName (spec : String) : String :=
  match splitAtLast '/' spec.toList with
  | some (_, name) => String.ofList name
  | none => spec

/-- The path a specification stands for: every colon is a slash. -/
def importPath (spec : String) : String :=
  String.ofList (spec.toList.map fun c => if c = ':' then '/' else c)

/-- `use`; `headStop` is where the head of the form stops. -/
def compileUse (headStop : Nat) (span : Span) : List Argument → Compile Operation
  | [] => failAt .missingModule (Span.point headStop)
  | [only] =>
    match only.compound.literal? with
    | none => failAt .moduleNotLiteral only.span
    | some spec => do
      declare (importName spec ++ ":")
      return .useModule (importName spec) (importPath spec) span
  | _ :: first :: rest =>
    failAt .superfluousArguments (first.span.merge ((rest.getLast?.map Argument.span).getD
      first.span))

/-- One argument of `del`. -/
def deletion (a : Argument) : Compile Deletion :=
  match a.target? with
  | none => failAt .notDeletable a.span
  | some argument =>
    match argument.indexing.head with
    | .reference .. => failAt .deletionWithDollar a.span
    | .bareword text _ => do
      let ref := Reference.ofText text
      if ref.explode then failAt .deletionWithAt a.span
      else if argument.indexing.brackets.isEmpty then
        if ref.ns = "" ∨ ref.ns = "local" then
          if (← get).innermost.contains ref.name then
            modify (ScopeTable.undeclare · ref.name)
            return .localName ref.name
          else failAt (.notInLocalScope ref.name) a.span
        else if ref.ns = "E" then return .environment ref.name
        else failAt .deletionNotLocal a.span
      else if (← get).canRead ref.ns ref.name then
        return .element (.ofIndexing argument.indexing ref.ns ref.name (← argument.brackets))
      else failAt (.noVariable text) a.span
    | _ => failAt .notDeletable a.span

/-- The arguments of `del`, in order. -/
def deletions : List Argument → Compile (List Deletion)
  | [] => return []
  | a :: rest => return (← deletion a) :: (← deletions rest)

/-- Compiles a special form from its head, its span and its arguments. -/
def compile (form : SpecialForm) (headStop : Nat) (span : Span) (args : List Argument) :
    Compile Operation :=
  match form with
  | ifForm => compileIf span args
  | whileForm => compileWhile span args
  | forForm => compileFor span args
  | tryForm => compileTry span args
  | andForm => return .connective false (← exprs args) span
  | orForm => return .connective true (← exprs args) span
  | fnForm => compileFn span args
  | useForm => compileUse headStop span args
  | delForm => return .delete (← deletions args) span

end SpecialForm

end ValueShell
