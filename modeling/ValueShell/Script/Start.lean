/-
  Starting programs.

  What a file is as a program is decided by how it begins: with `#!` and a path it is run by the program
  at that path, which may itself be such a file; the programs of the system are known by name.  The
  system refuses arguments and environments that are too long before it looks at the file.
-/
import ValueShell.Script.Execution
import ValueShell.Script.Utility

namespace ValueShell

namespace Script

/-! ## Files as programs -/

/-- How many bytes of a file are looked at. -/
def lookedAt : Nat := 256

/-- Whether `c` stands between the words of the first line. -/
def isBlank (c : Char) : Bool := c == ' ' || c == '\t'

/-- The program that the first line of a file names, with its one argument; none if the file says
nothing of this kind.  A line that is not ended within the bytes that are looked at counts only if
the name is. -/
def interpreter? (bytes : List UInt8) : Option (ByteText × Option ByteText) :=
  match ByteText.ofBytes (bytes.take lookedAt) with
  | '#' :: '!' :: text =>
    let isNameChar (c : Char) : Bool := !isBlank c && c != '\x00'
    if (text.takeWhile (· ≠ '\x00')).contains '\n' then
      let line := ((text.takeWhile (· ≠ '\n')).reverse.dropWhile isBlank).reverse.dropWhile isBlank
      let name := line.takeWhile isNameChar
      let argument := (line.drop name.length).dropWhile isBlank
      if name.isEmpty then none else some (name, if argument.isEmpty then none else some argument)
    else
      let isCut := lookedAt ≤ bytes.length
      let line := text.dropWhile isBlank
      let name := line.takeWhile isNameChar
      let rest := line.drop name.length
      if isCut && rest.isEmpty then none
      else
        match rest with
        | ' ' :: _ | '\t' :: _ =>
          some (name, some ((rest.dropWhile isBlank).takeWhile (· ≠ '\x00')))
        | _ => some (name, none)
  | _ => none

/-- How often a file may be run by a file that is run by a file. -/
def deepestInterpreter : Nat := 6

/-- The program of the system that in the end runs the file at a path, with the words it is called
by. -/
def programFor (files : FileTree) : Nat → ByteText → List ByteText →
    Except FileError (String × List ByteText)
  | 0, _, _ => .error .tooManyLevels
  | turns + 1, path, words =>
    match files.find (ByteText.toString path) with
    | .error e => .error e
    | .ok (.program name) => .ok (name, words)
    | .ok (.file bytes true) =>
      match interpreter? bytes with
      | none => .error .notAProgram
      | some (name, argument) =>
        programFor files turns name (name :: argument.toList ++ path :: words.tail)
    | .ok _ => .error .permissionDenied

/-- The longest argument, in bytes with the one that ends it. -/
def longestArgument : Nat := 131072

/-- The room for all arguments and the environment, and for a pointer to each of them. -/
def argumentRoom : Nat := 2097152

/-- Whether arguments and an environment are too long. -/
def isTooLong (path : ByteText) (words : List ByteText) (environment : List (ByteText × ByteText)) :
    Bool :=
  let lengths := words.map (·.length + 1) ++
    environment.map fun (name, value) => name.length + value.length + 2
  lengths.any (fun n => decide (longestArgument < n)) ||
    decide (argumentRoom < path.length + 1 + lengths.foldl (fun sum n => sum + n + 8) 0)

/-! ## Shells -/

namespace Shell

/-- The variables that a shell begins with. -/
def startingVariables (environment : List (ByteText × ByteText)) (workDir : ByteText)
    (parent : Nat) : Table Variable :=
  let usual : List (String × ByteText) :=
    [("PATH", standardPath), ("PS1", "# ".toList), ("PS2", "> ".toList), ("PS4", "+ ".toList)]
  let start : Table Variable :=
    Table.ofList (usual.map fun (name, text) => (name, ⟨some text, false, false⟩))
  let given := environment.foldl
    (fun t (name, value) =>
      if isName name then Table.insert t (String.ofList name) ⟨some value, true, false⟩ else t)
    start
  let put (t : Table Variable) (name : String) (value : ByteText) (exported : Bool) : Table Variable :=
    let exported := exported || ((Table.find? t name).map Variable.exported).getD false
    Table.insert t name ⟨some value, exported, false⟩
  let t := put given "IFS" [' ', '\t', '\n'] false
  let t := put t "OPTIND" ['1'] false
  let t := put t "PPID" (toString parent).toList false
  put t "PWD" workDir true

/-- A program in the place of a process, called by the given words. -/
def replaced (s : Shell) (words : List ByteText) (environment : List (ByteText × ByteText)) : Shell :=
  { system := s.system, name := words.headD [], args := words.tail
    bindings := Table.ofList (environment.map fun (name, value) =>
      (ByteText.toString name, ⟨some value, true, false⟩))
    functions := [], descriptors := s.descriptors, options := [], status := 0
    substitutionStatus := 0, savedStatus := none
    input := ⟨[], 1, none, [], #[], [], []⟩
    line := 0, builtin := none, outputLost := false, loops := 0, skip := none, frames := []
    traps := s.traps.filter fun (_, action) => action.isEmpty
    caught := [], process := s.process, root := s.process, parent := s.parent, jobs := []
    lastJob := none, optionIndex := 1, optionOffset := none, umask := s.umask }

end Shell

namespace Interpreter

variable (i : Interpreter)

/-- Runs a shell on its arguments: on a text, on a file, or on standard input. -/
def runShell (args : List ByteText) : Sh Nat := do
  let found ← Sh.setOptions true (args.length + 1) ⟨args, false, false⟩
  let readsInput := (← get).hasOption 's'
  let fromInput : Sh Nat := do
    let text := ByteText.ofBytes ((← get).left 0)
    modify fun s => s.skipTo 0 []
    i.runFile text
  if found.command then
    match found.rest with
    | [] => Sh.fail "-c requires an argument"
    | text :: rest => do
      match rest with
      | [] => pure ()
      | name :: args => modify fun s => { s with name, args }
      let status ← i.runText text ⟨false, !readsInput⟩
      if readsInput && (← get).skip.isNone then fromInput else return status
  else
    match found.rest, readsInput with
    | path :: args, false => do
      let text ← readScript path
      modify fun s => { s with name := path, args }
      i.runFile text
    | args, _ => do
      Sh.setOption 's' true
      modify fun s => { s with args }
      fromInput

/-- Runs a program for `env`. -/
def runNamed (name : ByteText) (words : List ByteText) : Sh Nat := do
  let s ← get
  let path := (s.value? "PATH").getD "/bin:/usr/bin".toList
  let e ← match programNamed s.system.files path name with
    | .program path => i.become path words
    | .missing e => pure e
    | _ => pure .notFound
  Utility.warn (Utility.named "" name e)
  return if e = .notFound then 127 else 126

/-- Runs a program of the system on the words it is called by. -/
def runProgram (name : String) (words : List ByteText)
    (environment : List (ByteText × ByteText)) : Sh Nat := do
  let s ← get
  let own := s.replaced words environment
  if name = "sh" ∨ name = "dash" ∨ name = "bash" then
    set { own with bindings := Shell.startingVariables environment s.workDir s.parent }
    i.runShell words.tail
  else
    set own
    match Utility.ofName? (runNamed i) name with
    | some utility => utility words.tail
    | none => return 1

/-- Puts the program at a path in the place of the process, and runs it to its end. -/
def startProgram (path : ByteText) (words : List ByteText)
    (environment : List (ByteText × ByteText)) : Sh (Except FileError ExitStatus) := do
  let files := (← get).system.files
  if files.isExecutable (ByteText.toString path) && isTooLong path words environment then
    return .error .argumentsTooLong
  match programFor files deepestInterpreter path words with
  | .ok (name, words) => return .ok (← i.toEnd (runProgram i name words environment))
  | .error e => return .error e

/-- The interpreter that can go as deep as `fuel` says. -/
def ofFuel : Nat → Interpreter
  | 0 => ⟨fun _ _ => throw .outOfFuel, fun _ _ => throw .outOfFuel, fun _ _ _ => throw .outOfFuel⟩
  | fuel + 1 =>
    { command := fun c mode => runCommand (ofFuel fuel) c mode
      expand := fun p w => expandWord (ofFuel fuel) p w
      start := fun path words environment => startProgram (ofFuel fuel) path words environment }

end Interpreter

/-! ## Processes from outside -/

/-- How a program that was run to its end has changed what is around it. -/
structure ProcessResult where
  status : ExitStatus
  output : List UInt8
  errors : List UInt8
  /-- what the program has not read of its standard input -/
  input : List UInt8
  files : FileTree
deriving Inhabited

/-- The bound on commands inside each other. -/
def fuel : Nat := 1000000000

/-- Runs the program at a path to its end, as the process with the given number. -/
def runToEnd (process : Nat) (files : FileTree) (path : String) (args : List String)
    (environment : List (String × String)) (input : List UInt8) : Except FileError ProcessResult :=
  let name := ByteText.ofString path
  let words := name :: args.map ByteText.ofString
  let environment := environment.map fun (name, value) =>
    (ByteText.ofString name, ByteText.ofString value)
  let system : System :=
    ⟨files, #[.stream input [], .stream [] [], .stream [] []], process, [1, process], []⟩
  let descriptors := [(0, ⟨0⟩), (1, ⟨1⟩), (2, ⟨2⟩)]
  let outer : Shell :=
    Shell.replaced
      { (default : Shell) with system, descriptors, process, parent := 1, umask := 18 } [] []
  let answer (status : ExitStatus) (s : Shell) : ProcessResult :=
    let bytes (n : Nat) : List UInt8 := s.system.left ⟨n⟩
    let files := { s.system.files with workDir := files.workDir }
    ⟨status, bytes 1, bytes 2, bytes 0, files⟩
  match (Interpreter.ofFuel fuel).start name words environment outer with
  | .ok (.ok status) s => .ok (answer status s)
  | .ok (.error e) _ => .error e
  | .error (.ended status) s => .ok (answer status s)
  | .error _ s => .ok (answer (.exited 2) s)

end Script

end ValueShell
