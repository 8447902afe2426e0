/-
  The state of a shell that runs a script, and the steps on it.

  A step may be left early by a `Jump`; the state is kept in either case.  Within commands the shell
  leaves loops and functions by a `Skip` in its state, which every rule looks at between two
  commands.
-/
import ValueShell.Number.Numeral
import ValueShell.Script.ExitStatus
import ValueShell.Script.Grammar
import ValueShell.Script.System

namespace ValueShell

namespace Script

/-- A variable of a script. -/
structure Variable where
  value : Option ByteText
  exported : Bool
  readOnly : Bool
deriving Inhabited

/-- What is put back at the end of a function. -/
structure Frame where
  bindings : List (String × Option Variable)
  options : Option (List Char)
deriving Inhabited

/-- What is being left. -/
inductive Skip
  | break (levels : Nat)
  | continue (levels : Nat)
  /-- a function or a file; `explicit` if the status was given -/
  | return (explicit : Bool)
deriving DecidableEq, Repr, Inhabited

/-- Why a shell does not go on with the next command. -/
inductive Jump
  /-- the shell ends -/
  | exit (status : Nat)
  /-- an error, which ends the shell unless a builtin has caused it that may fail -/
  | failed (status : Nat)
  /-- the process has ended, or another program has run to its end in its place -/
  | ended (status : ExitStatus)
  | outOfFuel
deriving DecidableEq, Repr, Inhabited

/-- The state of a shell. -/
structure Shell where
  system : System
  name : ByteText
  args : List ByteText
  bindings : Table Variable
  functions : Table Command
  descriptors : List (Nat × OpenId)
  /-- the letters of the options that are set -/
  options : List Char
  status : Nat
  /-- of the last substitution in the command that runs -/
  substitutionStatus : Nat
  /-- in a trap: the status before it, with which the shell ends unless it is told another -/
  savedStatus : Option Nat
  /-- the text that is read, with all here-documents and aliases so far -/
  input : Reader
  /-- the line of the command that runs -/
  line : Nat
  /-- the builtin that runs, which complaints name -/
  builtin : Option ByteText
  /-- something that the builtin wrote could not be written -/
  outputLost : Bool
  loops : Nat
  skip : Option Skip
  frames : List Frame
  traps : List (Nat × ByteText)
  /-- signals that have come and have a trap -/
  caught : List Nat
  process : Nat
  /-- the first shell of the script -/
  root : Nat
  parent : Nat
  /-- the background processes that have ended, with their statuses -/
  jobs : List (Nat × Nat)
  lastJob : Option Nat
  /-- the argument at which `getopts` goes on, and how far it is within the one before -/
  optionIndex : Nat
  optionOffset : Option Nat
  /-- the permissions that new files do not get -/
  umask : Nat
deriving Inhabited

/-- A step of a shell. -/
abbrev Sh := EStateM Jump Shell

namespace Shell

/-! ## Variables -/

/-- The value of a variable. -/
def value? (s : Shell) (name : String) : Option ByteText :=
  (Table.find? s.bindings name).bind Variable.value

/-- The characters at which fields are split; `none` for the usual ones. -/
def separators (s : Shell) : ByteText := (s.value? "IFS").getD [' ', '\t', '\n']

/-- Whether an option is set. -/
def hasOption (s : Shell) (letter : Char) : Bool := s.options.contains letter

/-- How many groups of variables there are in an environment. -/
def environmentGroups : Nat := 39

/-- The group of a variable: its first byte counts sixteen times more than the others. -/
def environmentGroup (name : ByteText) : Nat :=
  (name.foldl (fun sum c => sum + c.toNat) ((name.headD '\x00').toNat * 16)) % environmentGroups

/-- The environment of the programs that the shell starts, group by group. -/
def environment (s : Shell) : List (ByteText × ByteText) :=
  let exported := s.bindings.filterMap fun (name, v) =>
    if v.exported then v.value.map fun value => (name.toList, value) else none
  exported.mergeSort fun (a, _) (b, _) => decide (environmentGroup a ≤ environmentGroup b)

/-- The directories in which commands are looked for. -/
def searchPath (s : Shell) : List ByteText := splitOn ':' ((s.value? "PATH").getD [])

/-! ## Files -/

/-- The open file of a descriptor. -/
def descriptor? (s : Shell) (number : Nat) : Option OpenId := s.descriptors.lookup number

/-- Sets or closes a descriptor. -/
def setDescriptor (s : Shell) (number : Nat) (id : Option OpenId) : Shell :=
  let others := s.descriptors.filter fun (n, _) => n != number
  { s with
    descriptors := match id with
      | some id => (number, id) :: others
      | none => others }

/-- Writes to a descriptor, if it is open. -/
def write (s : Shell) (number : Nat) (text : ByteText) : Shell :=
  match s.descriptor? number with
  | some id => { s with system := s.system.write id (ByteText.toBytes text) }
  | none => s

/-- The working directory as a path. -/
def workDir (s : Shell) : ByteText :=
  match s.system.files.workDir with
  | [] => ['/']
  | names => ByteText.ofString (String.join (names.map fun name => "/" ++ name))

/-- What a complaint begins with. -/
def complaintFront (s : Shell) (line : Nat) : ByteText :=
  let builtin := match s.builtin with
    | some name => name ++ ": ".toList
    | none => []
  s.name ++ (": " ++ toString line ++ ": ").toList ++ builtin

end Shell

namespace Sh

/-- Writes text to standard output. -/
def print (text : ByteText) : Sh Unit :=
  modify fun s =>
    if (s.descriptor? 1).isSome then s.write 1 text
    else { s with outputLost := s.outputLost || !text.isEmpty }

/-- Writes text to standard error. -/
def printError (text : ByteText) : Sh Unit := modify fun s => s.write 2 text

/-- Writes a complaint, with where it comes from. -/
def complain (message : String) : Sh Unit :=
  modify fun s => s.write 2 (s.complaintFront s.line ++ ByteText.ofString (message ++ "\n"))

/-- Fails with a complaint. -/
def fail {α : Type} (message : String) : Sh α := do
  complain message
  throw (.failed 2)

/-- Fails with a complaint about the syntax of what is being read. -/
def failSyntax {α : Type} (message : String) : Sh α := do
  modify fun s =>
    s.write 2 (s.complaintFront s.input.line ++ ByteText.ofString ("Syntax error: " ++ message ++ "\n"))
  throw (.failed 2)

/-- A text in a message. -/
def shown (text : ByteText) : String := ByteText.toString text

/-- Sets the entry of a variable, or removes it. -/
def setEntry (name : String) (v : Option Variable) : Sh Unit :=
  modify fun s =>
    { s with
      bindings := match v with
        | some v => Table.insert s.bindings name v
        | none => Table.erase s.bindings name }

/-- Assigns a value to a variable. -/
def assign (name : String) (value : ByteText) (exported : Bool) : Sh Unit := do
  let s ← get
  let old := (Table.find? s.bindings name).getD ⟨none, false, false⟩
  if old.readOnly then fail (name ++ ": is read only")
  let exported := exported || old.exported || s.hasOption 'a'
  setEntry name (some ⟨some value, exported, false⟩)
  if name = "OPTIND" then
    modify fun s =>
      let index := (Numeral.digits? 10 0 value).getD 1
      { s with optionIndex := if index = 0 then 1 else index, optionOffset := none }

/-- Runs a step and keeps nothing of what it does to the state but what processes share. -/
def apart {α : Type} (x : Sh α) (inside : Shell → Shell) : Sh (Except Jump α) := fun before =>
  let workDir := before.system.files.workDir
  let back (after : Shell) : Shell :=
    { before with
      system := { after.system with files := { after.system.files with workDir } } }
  match x (inside before) with
  | .ok a after => .ok (.ok a) (back after)
  | .error jump after => .ok (.error jump) (back after)

/-- Runs a step, and another one on the state it leaves, whether or not it was left early. -/
def andThen {α : Type} (x : Sh α) (change : Shell → Shell) : Sh α := fun s =>
  match x s with
  | .ok a after => .ok a (change after)
  | .error jump after => .error jump (change after)

/-- Runs a step and answers how it was left, unless fuel ran out or the process has ended. -/
def settle {α : Type} (x : Sh α) : Sh (Except Jump α) := fun s =>
  match x s with
  | .ok a after => .ok (.ok a) after
  | .error .outOfFuel after => .error .outOfFuel after
  | .error (.ended status) after => .error (.ended status) after
  | .error jump after => .ok (.error jump) after

/-- Takes a step again and again, until it says not to go on. -/
def loop {α : Type} (step : α → Sh (α × Bool)) : Nat → α → Sh α
  | 0, _ => throw .outOfFuel
  | turns + 1, a => fun s =>
    match step a s with
    | .ok (a, true) s => loop step turns a s
    | .ok (a, false) s => .ok a s
    | .error jump s => .error jump s

/-- The bound on the turns of a loop. -/
def loopBound : Nat := 1000000000

end Sh

/-- How a command is evaluated. -/
structure Mode where
  /-- its failure is looked at, and does not end the shell -/
  tested : Bool
  /-- nothing comes after it in this process -/
  last : Bool
deriving DecidableEq, Repr, Inhabited

/-- A command among others. -/
def Mode.usual : Mode := ⟨false, false⟩

/-- A command of which the outcome is looked at. -/
def Mode.test : Mode := ⟨true, false⟩

/-- What happens to characters of a word. -/
structure Purpose where
  /-- the word becomes fields, so what is expanded in it is split -/
  fields : Bool
  /-- the word stands in braces, so its own characters are split as well -/
  inBraces : Bool
  /-- a tilde at the beginning stands for a directory -/
  tilde : Bool
  /-- so does one after a colon -/
  colons : Bool
deriving DecidableEq, Repr, Inhabited

/-- A character of an expanded word. -/
inductive Piece
  /-- what is `quoted` is not taken as a pattern; what is `soft` is split -/
  | char (c : Char) (quoted soft : Bool)
  /-- quotes stood here -/
  | mark
  /-- a field ends here -/
  | border
  /-- the end of an expansion -/
  | seam
  /-- the end of `"$@"`, so there is a field even if it is empty -/
  | kept
deriving DecidableEq, Repr, Inhabited

/-- The ways to run what is inside, and what is outside. -/
structure Interpreter where
  command : Command → Mode → Sh Nat
  expand : Purpose → Word → Sh (List Piece)
  /-- puts the program at a path in the place of the process -/
  start : ByteText → List ByteText → List (ByteText × ByteText) → Sh (Except FileError ExitStatus)

end Script

end ValueShell
