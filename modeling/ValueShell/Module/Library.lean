/-
  Where the code of a module comes from.

  The module `a/b` is the file `a/b` with the extension of modules below the library directory.  If
  there is no such file it may be BUNDLED, that is, supplied with the session.
-/
import ValueShell.Failure.Fault
import ValueShell.Table
import ValueShell.Text.Source
import ValueShell.World.FileTree

namespace ValueShell

/-- Where modules are looked for. -/
structure Library where
  /-- the directory, if there is one -/
  directory : Option String
  /-- the code of bundled modules, by path -/
  bundled : Table String
deriving Inhabited

namespace Library

/-- The extension of module files. -/
def extension : String := "vesh"

/-- What a bundled module shows as its file. -/
def bundledPath : String := "<builtin module>"

/-- The bundled module at a path. -/
def bundledSource? (l : Library) (path : String) : Option Source :=
  (Table.find? l.bundled path).map (Source.module path bundledPath)

/-- The source of the module at a path. -/
def findSource (l : Library) (files : FileTree) (path : String) : Except Fault Source :=
  match l.directory with
  | none =>
    match l.bundledSource? path with
    | some source => .ok source
    | none => .error .noLibrary
  | some directory =>
    let file := joinPath directory (path ++ "." ++ extension)
    match files.readText file with
    | .ok code => .ok (.module path file code)
    | .error .notFound =>
      match l.bundledSource? path with
      | some source => .ok source
      | none => .error (.moduleNotFound path file)
    | .error error => .error (.unreadable file error.message)

end Library

end ValueShell
