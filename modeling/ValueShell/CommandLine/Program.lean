/-
  The program: one unit, from a script, from an argument or from standard input.

  The value and byte output of the unit go to standard output, and a failure is reported on standard
  error, after what the commands that the unit has run wrote there.  The exit code is 0 if the unit
  succeeds, 1 if it fails or cannot be read, 2 if the command line is wrong, and otherwise the lowest
  byte of what the unit asked for.
-/
import ValueShell.CommandLine.Config

namespace ValueShell

/-- What a run of the program leaves behind. -/
structure ProgramResult where
  exitCode : Nat
  standardOutput : List UInt8
  standardError : List UInt8
deriving Inhabited

namespace ProgramResult

/-- Nothing but a text on standard output. -/
def printing (text : String) : ProgramResult := ⟨0, Utf8.encode text.toList, []⟩

/-- Nothing but an exit code and a text on standard error. -/
def complaining (exitCode : Nat) (text : String) : ProgramResult :=
  ⟨exitCode, [], Utf8.encode text.toList⟩

end ProgramResult

namespace Program

/-- The bound on evaluations inside each other. -/
def fuel : Nat := 1000000000

/-- The source to run, or the complaint that it cannot be read. -/
def readSource (files : FileTree) (standardInput : List UInt8) : Input → Except String Source
  | .script path _ =>
    match files.readText path with
    | .ok code => .ok (.file path code)
    | .error .notFound => .error s!"cannot find file '{path}'"
    | .error .notText => .error s!"'{path}' contains invalid UTF-8 data"
    | .error e => .error s!"error reading '{path}': {e.message}"
  | .code code => .ok (.interactive code)
  | .standardInput =>
    match Utf8.decode? standardInput with
    | some code => .ok (.interactive (String.ofList code))
    | none => .error s!"error reading stdin: {FileError.notText.message}"

/-- Evaluates the source and reports its failure. -/
def runSource (config : Config) (session : Session) (source : Source) (onTerminal : Bool) :
    ProgramResult :=
  let session := match config.input with
    | .script _ args => session.bindGlobal "args" (.list (args.map Value.text))
    | _ => session
  let (outcome, session) := session.evaluate fuel source .standard
  let output := session.world.streams.standard.toList
  let errors := session.world.streams.errors.toList
  match outcome with
  | .done => ⟨0, output, errors⟩
  | .exited code => ⟨(code % 256).toNat, output, errors⟩
  | .failed e =>
    let report := e.diagnostic.render (config.color.useColors onTerminal)
    ⟨1, output, errors ++ Utf8.encode report.toList⟩
  | .cutOff => ⟨1, output, errors ++ Utf8.encode "error: evaluation is nested too deep\n".toList⟩

/-- The settings of a run that does run code. -/
def config? (args : List String) (environment : Environment) : Option Config :=
  match Request.ofArguments args environment.get? with
  | .ok (.run config) => some config
  | _ => none

/-- Runs the program. -/
def run (args : List String) (environment : Environment) (files : FileTree)
    (standardInput : List UInt8) (processId : String) (onTerminal : Bool) : ProgramResult :=
  match Request.ofArguments args environment.get? with
  | .error e => .complaining 2 ("error: " ++ e.message ++ "\n\n" ++ usage ++ "\n")
  | .ok .help => .printing (usage ++ "\n")
  | .ok (.run config) =>
    match readSource files standardInput config.input with
    | .error complaint => .complaining 1 (complaint ++ "\n")
    | .ok source =>
      let session := Session.start ⟨config.libDir, []⟩ environment files processId
      let left := match config.input with
        | .standardInput => []
        | _ => standardInput
      let session := session.mapWorld fun w => { w with streams := { w.streams with input := left } }
      runSource config session source onTerminal

end Program

end ValueShell
