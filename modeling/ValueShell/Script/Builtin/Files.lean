/-
  Builtins about directories and files, and those that write.
-/
import ValueShell.Script.Condition
import ValueShell.Script.Format
import ValueShell.Script.Lookup

namespace ValueShell

namespace Script

namespace Shell

/-- The node at a path. -/
def node? (s : Shell) (path : ByteText) : Option FileNode :=
  (s.system.files.find (ByteText.toString path)).toOption

/-- The answer to a question about a file. -/
def fileFact (s : Shell) (question : FileQuestion) (path : ByteText) : Bool :=
  match s.node? path with
  | none => false
  | some node =>
    match question, node with
    | .exists, _ => true
    | .readable, _ => true
    | .writable, _ => true
    | .regular, .file .. => true
    | .regular, .program _ => true
    | .directory, .directory _ => true
    | .characterDevice, .device _ => true
    | .executable, .file _ executable => executable
    | .executable, .device _ => false
    | .executable, _ => true
    | .filled, .file bytes _ => !bytes.isEmpty
    | .filled, .device _ => false
    | .filled, _ => true
    | _, _ => false

/-- What a shell knows about files. -/
def facts (s : Shell) : Facts :=
  { file := s.fileFact
    sameFile := fun a b =>
      match s.system.files.locate (ByteText.toString a), s.system.files.locate (ByteText.toString b) with
      | .ok (a, _), .ok (b, _) => a == b
      | _, _ => false }

end Shell

namespace Sh

/-- `test` and `[`. -/
def test (bracket : Bool) (args : List ByteText) : Sh Nat := do
  match Condition.holds (← get).facts bracket args with
  | .ok answer => return if answer then 0 else 1
  | .error problem => fail problem.message

/-- `printf`. -/
def printFormatted (args : List ByteText) : Sh Nat := do
  let (_, args) ← options "" args
  match args with
  | [] => fail "usage: printf format [arg ...]"
  | format :: args => do
    let printed := Printed.run format args
    printed.complaints.forM complain
    print printed.output
    match printed.failure with
    | some message => fail message
    | none => return if printed.complaints.isEmpty then 0 else 1

/-- Whether a path is looked for only where the working directory is: it is absolute, or begins with a
component of points. -/
def isAnchored (path : ByteText) : Bool :=
  match path with
  | '/' :: _ => true
  | _ =>
    let first := path.takeWhile (· ≠ '/')
    first == ['.'] || first == ['.', '.']

/-- Goes to a directory; false if there is none. -/
def goTo (path : ByteText) : Sh Bool := do
  let s ← get
  let names := s.system.files.namesOf (ByteText.toString path)
  match s.system.files.at? names with
  | some (.directory _) => do
    let old := s.workDir
    set { s with system := { s.system with files := { s.system.files with workDir := names } } }
    assign "OLDPWD" old true
    assign "PWD" (← get).workDir true
    return true
  | _ => return false

/-- `cd`. -/
def changeDirectory (args : List ByteText) : Sh Nat := do
  let (_, args) ← options "LP" args
  let s ← get
  let (given, shows) : ByteText × Bool := match args with
    | [] => ((s.value? "HOME").getD [], false)
    | ['-'] :: _ => ((s.value? "OLDPWD").getD [], true)
    | path :: _ => (path, false)
  let path := if given.isEmpty then ['.'] else given
  let directories := match s.value? "CDPATH" with
    | some text => if isAnchored path then [] else splitOn ':' text
    | none => []
  let candidates := directories.filter fun directory =>
    match s.node? (inDirectory directory path) with
    | some (.directory _) => true
    | _ => false
  let (target, shows) := match candidates with
    | directory :: _ => (inDirectory directory path, shows || !directory.isEmpty)
    | [] => (path, shows)
  if ← goTo target then
    if shows then print ((← get).workDir ++ ['\n'])
    return 0
  else fail ("can't cd to " ++ shown given)

/-- `pwd`. -/
def printDirectory (args : List ByteText) : Sh Nat := do
  let _ ← options "LP" args
  print ((← get).workDir ++ ['\n'])
  return 0

/-- The permissions that a mask leaves to someone. -/
def permissionLetters (mask : Nat) : ByteText :=
  (if mask / 4 % 2 = 0 then ['r'] else []) ++ (if mask / 2 % 2 = 0 then ['w'] else []) ++
    (if mask % 2 = 0 then ['x'] else [])

/-- `umask`. -/
def changeMask (args : List ByteText) : Sh Nat := do
  let (options, args) ← options "S" args
  let mask := (← get).umask
  match args with
  | [] => do
    if options.isEmpty then
      let digits := Nat.toDigits 8 mask
      print (List.replicate (4 - digits.length) '0' ++ digits ++ ['\n'])
    else
      print ("u=".toList ++ permissionLetters (mask / 64) ++ ",g=".toList ++
        permissionLetters (mask / 8 % 8) ++ ",o=".toList ++ permissionLetters (mask % 8) ++ ['\n'])
    return 0
  | text :: _ => do
    match text with
    | c :: _ =>
      if c.isDigit then
        match Numeral.digits? 8 0 text with
        | some mask =>
          if mask < 512 then
            modify fun s => { s with umask := mask }
            return 0
          else fail ("Illegal number: " ++ shown text)
        | none => fail ("Illegal number: " ++ shown text)
      else fail ("Illegal mode: " ++ shown text)
    | [] => return 0

end Sh

end Script

end ValueShell
