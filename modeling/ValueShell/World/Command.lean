/-
  Commands of the system.

  A command is found by its name: one that holds a slash is a path, any other is looked for in the
  directories of `PATH`.  What is found is started as a program, which can read standard input, write,
  and change files.

  What programs do is not up to the shell.  A program may look at a clock, at its own process number, or at
  another machine, so when it is started again it need not do the same.  `Programs` therefore says of each
  program that will be started what it does, and nothing is assumed of it; `Programs.posix` is what a session
  starts with.
-/
import ValueShell.Script.Start
import ValueShell.World.Environment

namespace ValueShell

/-- Why a command that was found cannot be started. -/
inductive StartError
  | file (error : FileError)
  | nulInArgument
deriving DecidableEq, Repr, Inhabited

/-- The wording of an error. -/
def StartError.message : StartError → String
  | file error => error.message
  | nulInArgument => "nul byte found in provided data"

/-- What a program does that is run to its end: with files, as the program at a path, with arguments, an
environment and standard input. -/
abbrev Program : Type :=
  FileTree → String → List String → List (String × String) → List UInt8 →
    Except FileError Script.ProcessResult

/-- **What the programs do** that are yet to be started, in the order in which they will be. -/
abbrev Programs : Type := Nat → Program

namespace Programs

/-- The first of them. -/
def next (programs : Programs) : Program := programs 0

/-- Those after the first. -/
def rest (programs : Programs) : Programs := fun k => programs (k + 1)

/-- A shell and utilities, which do the same each time but for the numbers of their processes. -/
def posix : Programs := fun k => Script.runToEnd (k + 2)

end Programs

namespace Command

/-- The directories that commands are looked for in; empty entries of `PATH` do not count. -/
def directories (e : Environment) : List String :=
  match e.get? "PATH" with
  | none => []
  | some path => ((splitOn ':' path.toList).filter (· ≠ [])).map String.ofList

/-- The path of the command called `name`. -/
def search? (e : Environment) (files : FileTree) (name : String) : Option String :=
  if name.toList.contains '/' then if files.isExecutable name then some name else none
  else ((directories e).map fun dir => joinPath dir name).find? files.isExecutable

/-- Runs the program at a path to its end, which is the next one of `programs`. -/
def start (programs : Programs) (e : Environment) (files : FileTree) (path : String)
    (args : List String) (input : List UInt8) : Except StartError Script.ProcessResult :=
  if args.any fun arg => arg.toList.contains '\x00' then .error .nulInArgument
  else (programs.next files path args e.entries input).mapError .file

end Command

end ValueShell
