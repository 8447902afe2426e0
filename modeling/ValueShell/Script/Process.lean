/-
  Processes of a script: what signals do, and how a shell comes to its end.

  A process is a step on the state of a shell, of which nothing but what processes share is kept.  It
  ends when its commands have run or when it is left by a jump; if it has not been replaced by another
  program or ended by a signal, its trap for the end runs last.
-/
import ValueShell.Script.State

namespace ValueShell

namespace Script

/-- Whether a signal can be caught. -/
def isCatchable (signal : Nat) : Bool := signal != 9 && signal != 19

namespace Sh

/-- Takes a signal that has come for this process. -/
def receive (signal : Nat) : Sh Unit := do
  let s ← get
  match if isCatchable signal then s.traps.lookup signal else none with
  | some [] => return ()
  | some _ => set { s with caught := s.caught ++ [signal] }
  | none =>
    if signal = 0 ∨ Signal.isHarmless signal then return () else throw (.ended (.killed signal))

/-- Takes the signals that have come for this process. -/
def receiveAll : Sh Unit := do
  let s ← get
  let (mine, others) := s.system.signals.partition fun (process, _) => process == s.process
  if mine.isEmpty then return ()
  set { s with system := { s.system with signals := others } }
  mine.forM fun (_, signal) => receive signal

/-- Says that a process has been ended by a signal. -/
def reportSignal (status : ExitStatus) : Sh Unit :=
  match status with
  | .exited _ => return ()
  | .killed signal =>
    if signal = 2 ∨ signal = 13 then return ()
    else printError (ByteText.ofString (Signal.description signal ++ "\n"))

/-- Reads the commands on the next line; none at the end. -/
def readNext : Sh (Option Command) := do
  let s ← get
  match readLine s.input with
  | .ok c input => do
    set { s with input }
    return c
  | .error problem input => do
    set { s with input }
    failSyntax problem.message

end Sh

/-- A shell for a process of its own, with the given number. -/
def Shell.forProcess (process : Nat) (s : Shell) : Shell :=
  { s with
    process, system := { s.system with alive := process :: s.system.alive }
    traps := s.traps.filter fun (_, action) => action.isEmpty
    caught := [], jobs := [] }

namespace Interpreter

variable (i : Interpreter)

/-- Runs the commands that are left of the text that is read, until the end or until something around
them is left, and answers the status of the last one. -/
def runRest (mode : Mode) : Sh Nat :=
  Sh.loop (fun status => do
    match ← Sh.readNext with
    | none => return (status, false)
    | some c => do
      let last := mode.last && (← get).input.isAtEnd
      let found ← i.command c ⟨mode.tested, last⟩
      let status := match c with
        | .nothing => status
        | _ => found
      return (status, (← get).skip.isNone)) Sh.loopBound 0

/-- Runs the commands of a text. -/
def runText (text : ByteText) (mode : Mode) : Sh Nat := do
  let outer := (← get).input
  modify fun s => { s with input := outer.nested text }
  Sh.andThen (i.runRest mode) fun s => { s with input := outer.resumed s.input }

/-- Runs the action of a trap. -/
def runTrap (status : Nat) (action : ByteText) : Sh Unit := do
  let _ ← i.runText action .usual
  modify fun s => if s.skip = some (.return true) then s else { s with status }

/-- Runs the traps of the signals that have come, the lowest first. -/
def runTraps : Sh Unit := do
  let s ← get
  if s.caught.isEmpty then return ()
  let status := s.savedStatus.getD s.status
  set { s with savedStatus := some status, caught := [] }
  let signals := (List.range (Signal.greatest + 1)).filter s.caught.contains
  signals.forM fun signal => do
    let now ← get
    if now.skip.isSome then set { now with caught := now.caught ++ [signal] }
    else i.runTrap status ((now.traps.lookup signal).getD [])
  modify fun now => { now with savedStatus := s.savedStatus }

/-- Runs the trap for the end of a shell that ends with the given status, and answers the status with
which it does end. -/
def atEnd (status : Nat) : Sh Nat := do
  let s ← get
  match s.traps.lookup 0 with
  | none => return status
  | some action => do
    set { s with
      status, savedStatus := some status, skip := none, loops := 0
      traps := s.traps.filter fun (signal, _) => signal != 0 }
    match ← Sh.settle (i.runText action .usual) with
    | .ok _ => return status
    | .error (.exit status) => return status
    | .error (.failed status) => return status
    | .error jump => throw jump

/-- Runs a step as all that a process does, and answers how the process ends. -/
def toEnd (x : Sh Nat) : Sh ExitStatus := fun s =>
  let ending : Sh ExitStatus := do
    let status ← match ← Sh.settle x with
      | .ok status => i.atEnd status
      | .error (.exit status) => i.atEnd status
      | .error (.failed status) => i.atEnd status
      | .error jump => throw jump
    return .exited (status % 256)
  match ending s with
  | .error (.ended status) s => .ok status s
  | other => other

/-- Runs a step in a process of its own, and answers how it ended. -/
def inProcess (x : Sh Nat) (inside : Shell → Shell) : Sh (Nat × ExitStatus) := do
  let process ← modifyGet fun s =>
    let (process, system) := s.system.newProcess
    (process, { s with system })
  let outcome ← Sh.apart (i.toEnd x) fun s => inside (s.forProcess process)
  modify fun s =>
    { s with system := { s.system with alive := s.system.alive.filter (· != process) } }
  match outcome with
  | .ok status => do
    Sh.receiveAll
    return (process, status)
  | .error jump => throw jump

end Interpreter

end Script

end ValueShell
