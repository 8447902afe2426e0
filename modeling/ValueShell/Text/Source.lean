/-
  Named pieces of source code.

  Errors and closures remember the source they come from.  Its kind decides what code may do:
  only a MODULE may import relative to itself, and its name, the path it was loaded under, is what
  such an import starts from.
-/

namespace ValueShell

/-- Where a source comes from. -/
inductive SourceKind
  /-- typed at a prompt, or given on the command line -/
  | interactive
  /-- a script file -/
  | file
  /-- loaded by an import; the source is named by its module path -/
  | module
deriving DecidableEq, Repr, Inhabited

/-- A named piece of code. -/
structure Source where
  /-- shown in reports; for a module its path, such as `a/b` -/
  name : String
  /-- where the code lives: a file, or `<builtin module>` -/
  path : String
  code : String
  kind : SourceKind
deriving DecidableEq, Repr, Inhabited

namespace Source

/-- Code typed interactively. -/
def interactive (code : String) : Source := ⟨"[interactive]", "", code, .interactive⟩

/-- The code of a script file. -/
def file (path code : String) : Source := ⟨path, path, code, .file⟩

/-- The code of the module called `name`, found at `path`. -/
def module (name path code : String) : Source := ⟨name, path, code, .module⟩

/-- Whether the code was loaded by an import. -/
def isModule (s : Source) : Bool := s.kind == .module

end Source

end ValueShell
