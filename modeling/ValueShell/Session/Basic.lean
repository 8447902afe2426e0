/-
  Sessions.

  A session evaluates UNITS, one after the other, in one global scope: what a unit binds, the later
  ones see.  A unit is read, compiled and run; it fails as a whole if it cannot be read or compiled,
  and then nothing of it has run.  A signal that no boundary absorbed is an exception of the unit.
-/
import ValueShell.Eval.Schedule
import ValueShell.Session.Builtins

namespace ValueShell

/-- Why a unit failed. -/
inductive UnitError
  | parse (source : Source) (error : ParseError)
  | compile (source : Source) (error : CompileError)
  | exception (exception : Exception)
deriving Repr, Inhabited

/-- The wording of a failure. -/
def UnitError.text : UnitError → String
  | parse _ e => "parse error: " ++ e.problem.message
  | compile _ e => "compile error: " ++ e.problem.message
  | exception e => "exception: " ++ e.fault.message

/-- How a unit ended. -/
inductive UnitOutcome
  | done
  | failed (error : UnitError)
  /-- the program asked to end -/
  | exited (code : Int)
  /-- the evaluation was cut off -/
  | cutOff
deriving Repr, Inhabited

/-- A session between two units. -/
structure Session where
  world : World
  setting : Setting
  globals : ScopeId
deriving Inhabited

namespace Session

/-- A session in which nothing has run. -/
def start (library : Library) (environment : Environment) (files : FileTree) (processId : String) :
    Session :=
  let world := World.start environment files
  let (builtins, store) := world.store.newScope []
  let store := store.bindConstants builtins (Builtin.bindings processId)
  let (globals, store) := store.newScope []
  ⟨{ world with store }, ⟨builtins, library⟩, globals⟩

/-- The builtins are in the first scope, and the globals in the one after it. -/
theorem start_eq (library : Library) (environment : Environment) (files : FileTree)
    (processId : String) :
    ∃ store, store = (Store.empty.newScope []).2.bindConstants ⟨0⟩ (Builtin.bindings processId) ∧
      start library environment files processId =
        ⟨{ World.start environment files with store := (store.newScope []).2 }, ⟨⟨0⟩, library⟩,
          ⟨store.scopes.size⟩⟩ := ⟨_, rfl, rfl⟩

/-- The session with its world changed. -/
def mapWorld (s : Session) (change : World → World) : Session := { s with world := change s.world }

/-- Binds a global variable that takes any value. -/
def bindGlobal (s : Session) (name : String) (v : Value) : Session :=
  s.mapWorld fun w => { w with store := w.store.bindNew s.globals name (.plain v) }

/-- The global variables with their values, in the order of their names. -/
def globalValues (s : Session) : List (String × Value) :=
  (s.world.store.scope s.globals).map fun (name, c) => (name, s.world.store.read c)

/-- The paths of the modules that are loaded, ascending. -/
def loadedModules (s : Session) : List String := s.world.modules.loadedPaths

/-- The operation of a unit. -/
def compile (s : Session) (source : Source) : Except (Option UnitError) Operation :=
  match readChunk source.code with
  | .error .exhausted => .error none
  | .error (.problem e) => .error (some (.parse source e))
  | .ok chunk =>
    (compileUnit (s.world.store.names s.setting.builtins) (s.world.store.names s.globals) chunk).mapError
      fun e => some (.compile source e)

/-- The frame of a unit. -/
def frame (s : Session) (source : Source) (ports : Ports) (upScope : ScopeId) : Frame :=
  { setting := s.setting, source, localScope := s.globals, upScope, ports, label := "top",
    loading := [] }

/-! ## Units, run by any evaluator -/

section By

variable (s : Session) (r : Runner)

/-- Runs an operation at the top of the session. -/
def executeBy (op : Operation) (source : Source) (ports : Ports) : UnitOutcome × Session :=
  let (upScope, store) := s.world.store.newScope []
  let f := s.frame source ports upScope
  let (outcome, world) := r.operation op f { s.world with store }
  let s := { s with world }
  match outcome with
  | .ok () => (.done, s)
  | .error (.unwind u) => (.failed (.exception (escapingException (f.site op.span) u)), s)
  | .error (.exit code) => (.exited code, s)
  | .error .blocked | .error .outOfFuel => (.cutOff, s)

/-- Evaluates a unit. -/
def evaluateBy (source : Source) (ports : Ports) : UnitOutcome × Session :=
  match s.compile source with
  | .error none => (.cutOff, s)
  | .error (some e) => (.failed e, s)
  | .ok op => s.executeBy r op source ports

/-- Evaluates a unit on the given input values, and collects its output. -/
def evaluateCapturedBy (source : Source) (input : Option (List Value)) :
    UnitOutcome × Captured × Session :=
  let streams := s.world.streams
  let (input, streams) := match input with
    | none => (none, streams)
    | some values =>
      let (q, streams) := streams.newQueue values
      (some q, streams)
  let (q, streams) := streams.newQueue []
  let (b, streams) := streams.newBuffer
  let s := s.mapWorld fun w => { w with streams }
  let (outcome, s) := s.evaluateBy r source ⟨input, .queue q, .buffer b⟩
  (outcome, s.world.streams.captured q b, s)

end By

/-! ## Units -/

/-- Runs an operation at the top of the session. -/
def execute (s : Session) (fuel : Nat) (op : Operation) (source : Source) (ports : Ports) :
    UnitOutcome × Session := s.executeBy (.ofFuel fuel) op source ports

/-- Evaluates a unit, with a bound on the number of evaluations inside each other. -/
def evaluate (s : Session) (fuel : Nat) (source : Source) (ports : Ports) :
    UnitOutcome × Session := s.evaluateBy (.ofFuel fuel) source ports

/-- A unit that compiles is run; one that does not has failed. -/
theorem evaluate_run (s : Session) (fuel : Nat) (source : Source) (ports : Ports) :
    s.evaluate fuel source ports =
      match s.compile source with
      | .error none => (.cutOff, s)
      | .error (some e) => (.failed e, s)
      | .ok op => s.execute fuel op source ports := rfl

/-- Evaluates a unit on the given input values, and collects its output. -/
def evaluateCaptured (s : Session) (fuel : Nat) (source : Source) (input : Option (List Value)) :
    UnitOutcome × Captured × Session := s.evaluateCapturedBy (.ofFuel fuel) source input

end Session

end ValueShell
