/-
  Module paths.

  A module is named by its path below the root of the library, and that path is the key it is cached
  under; so one module must have one path.  `cleanPath` brings a path into canonical form: no empty
  segment, no `.`, and `..` only where there is nothing left to go up from.  `resolvePath` does so for
  the target of an import, and refuses a target that leads out of the library.

  The segments read so far are kept on a stack, the last one on top.
-/
import ValueShell.Failure.Fault
import ValueShell.Operation.Reference
import ValueShell.Text.Source
import ValueShell.Text.Split

namespace ValueShell

namespace ModulePath

/-- The segment that goes up. -/
def up : List Char := ['.', '.']

/-- The stack after one more segment.  Going up takes the name on top away; where there is none it is
kept, unless the path starts at the root, above which there is nothing. -/
def push (rooted : Bool) (stack : List (List Char)) (segment : List Char) : List (List Char) :=
  if segment = [] ∨ segment = ['.'] then stack
  else if segment = up then
    match stack with
    | top :: rest => if top = up then (if rooted then top :: rest else up :: top :: rest) else rest
    | [] => if rooted then [] else [up]
  else segment :: stack

/-- Whether a path starts at the root. -/
def isRooted (path : List Char) : Bool := path.head? == some '/'

/-- The segments of a path in canonical form. -/
def segments (path : List Char) : List (List Char) :=
  ((splitOn '/' path).foldl (push (isRooted path)) []).reverse

/-- The canonical form of a path.  Of a path without segments it is `/` or `.`. -/
def clean (path : List Char) : List Char :=
  let joined := joinWith '/' (segments path)
  if isRooted path then '/' :: joined
  else if joined = [] then ['.']
  else joined

/-- Whether a target is relative to the module that imports it. -/
def isRelative (target : List Char) : Bool :=
  ['.', '/'].isPrefixOf target || ['.', '.', '/'].isPrefixOf target

/-- The directory of a module path. -/
def directory (path : List Char) : List Char :=
  match splitAtLast '/' path with
  | some (dir, _) => dir
  | none => ['.']

/-- Whether a path in canonical form leads out of the directory it starts from. -/
def escapes (path : List Char) : Bool :=
  path == up || (up ++ ['/']).isPrefixOf path || isRooted path

/-- The path of the module that `source` means by `target`. -/
def resolve (source : Source) (target : List Char) : Except Fault (List Char) := do
  let joined ←
    if isRelative target then
      if source.isModule then .ok (directory source.name.toList ++ '/' :: target)
      else .error .relativeImport
    else .ok target
  if escapes (clean joined) then throw .importOutsideLibrary
  return clean joined

end ModulePath

/-- The canonical form of a module path. -/
def cleanPath (path : String) : String := String.ofList (ModulePath.clean path.toList)

/-- The path of the module that `source` means by `target`. -/
def resolvePath (source : Source) (target : String) : Except Fault String :=
  (ModulePath.resolve source target.toList).map String.ofList

end ValueShell
