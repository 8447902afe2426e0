/-
  Builtins about the course of a script: signals and traps, jobs, other texts and programs, and the
  ways out.
-/
import ValueShell.Script.Lookup

namespace ValueShell

namespace Script

/-! ## Signals -/

/-- The name by which a script knows a signal; 0 is the end of the shell. -/
def signalName (signal : Nat) : String :=
  if signal = 0 then "EXIT"
  else if signal = 16 ∨ signal = 32 ∨ signal = 33 then toString signal
  else
    match Signal.name? signal with
    | some name => name
    | none =>
      if signal = 34 then "RTMIN"
      else if signal ≤ 49 then "RTMIN+" ++ toString (signal - 34)
      else if signal < Signal.greatest then "RTMAX-" ++ toString (Signal.greatest - signal)
      else "RTMAX"

/-- The signal of a name in any case, or of a number, from `least` on. -/
def signalOf? (least : Nat) (text : ByteText) : Option Nat :=
  if !text.isEmpty && text.all Char.isDigit then
    (Numeral.digits? 10 0 text).filter (· ≤ Signal.greatest)
  else
    let upper := text.map Char.toUpper
    ((List.range (Signal.greatest + 1)).drop least).find? fun signal => (signalName signal).toList == upper

namespace Sh

/-- Sends a signal to a process; false if there is no such process. -/
def send (signal process : Nat) : Sh Bool := do
  let s ← get
  if process = s.process then
    receive signal
    return true
  else if s.system.alive.contains process then
    set { s with system := { s.system with signals := s.system.signals ++ [(process, signal)] } }
    return true
  else return (s.jobs.lookup process).isSome

/-- The process of a job. -/
def jobProcess? (s : Shell) (text : ByteText) : Option Nat :=
  match text with
  | [] => s.lastJob
  | ['%'] => s.lastJob
  | ['+'] => s.lastJob
  | _ =>
    ((Numeral.digits? 10 0 text).filter (0 < ·)).bind fun n =>
      (s.jobs.reverse[n - 1]?).map Prod.fst

/-- The process that an argument of `kill` or `wait` names; none if it is a group of processes. -/
def processOf (text : ByteText) : Sh (Option Nat) := do
  match text with
  | '%' :: job =>
    match jobProcess? (← get) job with
    | some process => return some process
    | none => fail ("No such job: " ++ shown text)
  | '-' :: group => do
    let _ ← natural group
    return none
  | _ => return some (← natural text)

/-- How `kill` is used. -/
def killUsage : String :=
  "Usage: kill [-s sigspec | -signum | -sigspec] [pid | job]... or\nkill -l [exitstatus]"

/-- Names the signal of a number or of a status, or lists all. -/
def listSignals : List ByteText → Sh Nat
  | [] => do
    print "0\n".toList
    (List.range Signal.greatest).forM fun n => print (signalName (n + 1) ++ "\n").toList
    return 0
  | text :: _ => do
    let n ← natural text
    let signal := if 128 < n then n - 128 else n
    if 0 < signal ∧ signal ≤ Signal.greatest then
      print (signalName signal ++ "\n").toList
      return 0
    else fail ("invalid signal number or exit status: " ++ shown text)

/-- Sends a signal to every process that is named. -/
def sendToAll (signal : Nat) (targets : List ByteText) : Sh Nat := do
  let mut status := 0
  for target in targets do
    let found ← match ← processOf target with
      | some process => send signal process
      | none => pure false
    if !found then
      complain "No such process\n"
      status := 1
  return status

/-- `kill`. -/
def kill (args : List ByteText) : Sh Nat := do
  match args with
  | [] => fail killUsage
  | first :: rest =>
    match (if first.head? = some '-' then signalOf? 1 first.tail else none) with
    | some signal => if rest.isEmpty then fail killUsage else sendToAll signal rest
    | none => do
      let (options, targets) ← if first.head? = some '-' then options "ls:" args else pure ([], args)
      let lists := options.any fun (c, _) => c == 'l'
      let mut signal := none
      for (c, name) in options do
        if c = 's' then
          match signalOf? 1 name with
          | some found => signal := some found
          | none => fail ("invalid signal number or name: " ++ shown name)
      if lists then if signal.isSome then fail killUsage else listSignals targets
      else if targets.isEmpty then fail killUsage
      else sendToAll (signal.getD 15) targets

/-- Sets what happens on a signal: nothing is done about it if there is no action. -/
def setTrap (signal : Nat) (action : Option ByteText) : Sh Unit :=
  modify fun s =>
    let others := s.traps.filter fun (n, _) => n != signal
    { s with
      traps := match action with
        | some text => (signal, text) :: others
        | none => others }

/-- `trap`. -/
def trap (args : List ByteText) : Sh Nat := do
  let (_, args) ← options "" args
  let s ← get
  match args with
  | [] => do
    for signal in List.range (Signal.greatest + 1) do
      if let some action := s.traps.lookup signal then
        print ("trap -- ".toList ++ quoted action ++ (" " ++ signalName signal ++ "\n").toList)
    return 0
  | first :: rest => do
    let resets := rest.isEmpty || (signalOf? 0 first).any fun _ => first.all Char.isDigit
    let action := if resets || first == ['-'] then none else some first
    for name in if resets then args else rest do
      match signalOf? 0 name with
      | some signal => setTrap signal action
      | none => do
        printError ("trap: ".toList ++ name ++ ": bad trap\n".toList)
        return 1
    return 0

/-! ## Jobs -/

/-- `wait`. -/
def wait (args : List ByteText) : Sh Nat := do
  let (_, args) ← options "" args
  let mut status := 0
  for arg in args do
    let process ← match arg with
      | '%' :: job => pure (jobProcess? (← get) job)
      | _ => some <$> natural arg
    let jobs := (← get).jobs
    status := (process.bind fun n => jobs.lookup n).getD 127
  return status

/-! ## Aliases -/

/-- `alias`. -/
def setAliases (args : List ByteText) : Sh Nat := do
  if args.isEmpty then
    let aliases : List (String × ByteText) := (← get).input.aliases
    aliases.forM fun (name, meaning) => print (aliasLine name meaning)
    return 0
  let mut status := 0
  for arg in args do
    let definition : Option (ByteText × ByteText) := match arg with
      | [] => none
      | c :: cs => (splitAtFirst '=' cs).map fun (name, meaning) => (c :: name, meaning)
    match definition with
    | some (name, meaning) =>
      modify fun s =>
        let aliases := Table.insert s.input.aliases (ByteText.toString name) meaning
        { s with input := { s.input with aliases } }
    | none =>
      match Table.find? (← get).input.aliases (ByteText.toString arg) with
      | some meaning => print (aliasLine (ByteText.toString arg) meaning)
      | none =>
        printError ("alias: ".toList ++ arg ++ " not found\n".toList)
        status := 1
  return status

/-- `unalias`. -/
def removeAliases (args : List ByteText) : Sh Nat := do
  let (options, names) ← options "a" args
  if !options.isEmpty then
    modify fun s => { s with input := { s.input with aliases := [] } }
    return 0
  let mut status := 0
  for name in names do
    let s ← get
    let text := ByteText.toString name
    if (Table.find? s.input.aliases text).isSome then
      set { s with input := { s.input with aliases := Table.erase s.input.aliases text } }
    else
      printError ("unalias: ".toList ++ name ++ " not found\n".toList)
      status := 1
  return status

/-! ## Names -/

/-- `type`. -/
def describeAll (names : List ByteText) : Sh Nat := do
  let s ← get
  let mut status := 0
  for name in names do
    let (text, found) := s.describe true none name
    print text
    status := status ||| found
  return status

/-- `command` with options that only ask. -/
def describeCommand (args : List ByteText) : Sh Nat := do
  let (options, names) ← options "pvV" args
  let path := if options.any fun (c, _) => c == 'p' then some standardPath else none
  match options.filter fun (c, _) => c != 'p', names with
  | (c, _) :: more, name :: _ => do
    let full := ((c, []) :: more).any fun (c, _) => c == 'V'
    let (text, status) := (← get).describe full path name
    print text
    return status
  | _, _ => return 0

/-- `hash`: nothing is remembered, but names are checked. -/
def checkNames (args : List ByteText) : Sh Nat := do
  let (_, names) ← options "rv" args
  let mut status := 0
  for name in names do
    if let .missing e := (← get).lookUp true none name then
      complain (shown name ++ ": " ++ failureText "not found" e)
      status := 1
  return status

/-! ## Ways out -/

/-- `exit`. -/
def exit (args : List ByteText) : Sh Nat := do
  match args with
  | [] => do
    let s ← get
    throw (.exit (s.savedStatus.getD s.status))
  | text :: _ => throw (.exit (← natural text))

/-- `return`. -/
def returnFrom (args : List ByteText) : Sh Nat := do
  let status ← match args with
    | [] => pure (← get).status
    | text :: _ => natural text
  modify fun s => { s with skip := some (.return !args.isEmpty) }
  return status

/-- `break` and `continue`. -/
def leaveLoops (skip : Nat → Skip) (args : List ByteText) : Sh Nat := do
  let n ← match args with
    | [] => pure 1
    | text :: _ => do
      let n ← natural text
      if n = 0 then fail ("Illegal number: " ++ shown text)
      pure n
  modify fun s =>
    if s.loops = 0 then s else { s with skip := some (skip (min n s.loops)) }
  return 0

end Sh

namespace Interpreter

variable (i : Interpreter)

/-! ## Other texts and programs -/

/-- `eval`. -/
def evaluateText (mode : Mode) (args : List ByteText) : Sh Nat :=
  i.runText (joinWith ' ' args) ⟨mode.tested, false⟩

/-- The path of a file that is read as part of the script. -/
def pathOfPart (name : ByteText) : Sh ByteText := do
  if name.contains '/' then return name
  let s ← get
  let isFile (path : ByteText) : Bool :=
    match s.system.files.find (ByteText.toString path) with
    | .ok (.file ..) => true
    | _ => false
  match (s.searchPath.map fun directory => inDirectory directory name).find? isFile with
  | some path => return path
  | none => Sh.fail (Sh.shown name ++ ": not found")

/-- The text of a file that is to be run. -/
def readScript (path : ByteText) : Sh ByteText := do
  let s ← get
  match s.openFile .read path with
  | .error e => Sh.fail ("cannot open " ++ Sh.shown path ++ ": " ++ failureText "No such file" e)
  | .ok (id, opened) => return ByteText.ofBytes (opened.system.left id)

/-- Runs the commands of a text, of which a `return` leaves only the text. -/
def runFile (text : ByteText) : Sh Nat := do
  let status ← i.runText text .usual
  modify fun s =>
    match s.skip with
    | some (.return _) => { s with skip := none }
    | _ => s
  return status

/-- `.`. -/
def runPart (args : List ByteText) : Sh Nat := do
  let (_, args) ← Sh.options "" args
  match args with
  | [] => return 0
  | name :: _ => do
    let path ← pathOfPart name
    let text ← readScript path
    modify fun s => { s with builtin := some path }
    i.runFile text

/-- Puts a program in the place of the process, with the words by which it was called.  A file that is
no program is run as a script. -/
def become (path : ByteText) (words : List ByteText) : Sh FileError := do
  let environment := (← get).environment
  match ← i.start path words environment with
  | .ok status => throw (.ended status)
  | .error .notAProgram => do
    let shell := "/bin/sh".toList
    match ← i.start shell (shell :: path :: words.tail) environment with
    | .ok status => throw (.ended status)
    | .error e => return e
  | .error e => return e

/-- Puts a program in the place of the process, or ends the process with a complaint. -/
def becomeOrFail {α : Type} (found : Found) (words : List ByteText) : Sh α := do
  let e ← match found with
    | .program path => i.become path words
    | .missing e => pure e
    | _ => pure .notFound
  Sh.complain (Sh.shown (words.headD []) ++ ": " ++ failureText "not found" e)
  throw (.exit (match e with
    | .notFound | .notADirectory | .nameTooLong | .tooManyLevels => 127
    | _ => 126))

/-- `exec`. -/
def execute (args : List ByteText) : Sh Nat := do
  let (_, words) ← Sh.options "" args
  match words with
  | [] => return 0
  | name :: _ => do
    let s ← get
    i.becomeOrFail (programNamed s.system.files ((s.value? "PATH").getD []) name) words

end Interpreter

end Script

end ValueShell
