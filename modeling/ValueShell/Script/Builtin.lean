/-
  The builtins of scripts.

  A builtin is a step of the shell that runs it.  A failure ends only the builtin, unless it is a
  special one, and gives the status 2.
-/
import ValueShell.Script.Builtin.Files
import ValueShell.Script.Builtin.Processes
import ValueShell.Script.Builtin.Variables

namespace ValueShell

namespace Script

namespace Interpreter

variable (i : Interpreter)

/-- What a builtin does with its arguments. -/
def builtin (name : String) (mode : Mode) (args : List ByteText) : Sh Nat :=
  match name with
  | ":" | "true" | "jobs" => return 0
  | "false" => return 1
  | "." => i.runPart args
  | "[" => Sh.test true args
  | "test" => Sh.test false args
  | "alias" => Sh.setAliases args
  | "unalias" => Sh.removeAliases args
  | "bg" | "fg" => Sh.fail "No current job"
  | "break" => Sh.leaveLoops .break args
  | "continue" => Sh.leaveLoops .continue args
  | "cd" | "chdir" => Sh.changeDirectory args
  | "command" => Sh.describeCommand args
  | "echo" => do
    Sh.print (echoed args)
    return 0
  | "eval" => i.evaluateText mode args
  | "exec" => i.execute args
  | "exit" => Sh.exit args
  | "export" => Sh.markAll .exported args
  | "readonly" => Sh.markAll .readOnly args
  | "getopts" => Sh.getOption args
  | "hash" => Sh.checkNames args
  | "kill" => Sh.kill args
  | "local" => Sh.declareLocal args
  | "printf" => Sh.printFormatted args
  | "pwd" => Sh.printDirectory args
  | "read" => Sh.readVariables args
  | "return" => Sh.returnFrom args
  | "set" => Sh.setCommand args
  | "shift" => Sh.shift args
  | "times" => do
    Sh.print "0m0.00s 0m0.00s\n0m0.00s 0m0.00s\n".toList
    return 0
  | "trap" => Sh.trap args
  | "type" => Sh.describeAll args
  | "ulimit" => do
    Sh.print "unlimited\n".toList
    return 0
  | "umask" => Sh.changeMask args
  | "unset" => Sh.unset args
  | "wait" => Sh.wait args
  | _ => return 127

/-- Runs a builtin that was called by the given words. -/
def runBuiltin (name : String) (special : Bool) (mode : Mode) (words : List ByteText) : Sh Nat := do
  let outer := (← get).builtin
  modify fun s => { s with builtin := words.head?, outputLost := false }
  let step : Sh Nat := do
    let status ← i.builtin name mode words.tail
    if (← get).outputLost then
      Sh.complain (Sh.shown (words.headD []) ++ ": I/O error")
      return status ||| 1
    else return status
  match ← Sh.settle (Sh.andThen step fun s => { s with builtin := outer, outputLost := false }) with
  | .ok status => return status
  | .error (.failed status) => if special then throw (.failed status) else return status
  | .error jump => throw jump

end Interpreter

end Script

end ValueShell
