/-
  Frames, and what names mean in them.

  A frame is the context that an operation runs in: its source, the scope it declares names in, the
  scope it closed over, where its output goes, and a label that reports show.  A special form runs its
  parts in a copy of the frame that differs in the label alone.

  A name is looked up in the local scope, then in the one above, then among the builtins.  A qualifier
  names one of these scopes, the environment (`E`), the commands of the system (`e`), or a namespace
  that a variable holds.
-/
import ValueShell.Eval.Basic
import ValueShell.Module.Library
import ValueShell.Text.Split

namespace ValueShell

/-- What stays the same for a whole session. -/
structure Setting where
  /-- the scope of the builtin names -/
  builtins : ScopeId
  library : Library
deriving Inhabited

/-- The context of an operation. -/
structure Frame where
  setting : Setting
  source : Source
  localScope : ScopeId
  /-- the variables that were visible where the running closure was made -/
  upScope : ScopeId
  ports : Ports
  label : String
  /-- the modules whose code this runs inside of, outermost first -/
  loading : List String
deriving Inhabited

/-- What the name of a variable stands for. -/
inductive Place
  | cell (cell : CellId)
  /-- a variable made on the spot, such as `$e:ls~`; what is written to it is lost -/
  | transient (value : Value)
  | environment (name : String)

namespace Store

/-- The namespace that a cell holds. -/
def namespaceIn? (s : Store) (c : CellId) : Option ScopeId :=
  match s.read c with
  | .ns scope => some scope
  | _ => none

/-- The namespace that a scope holds under a name, without the colon that names of namespaces end
in. -/
def namespaceNamed? (s : Store) (scope : ScopeId) (name : List Char) : Option ScopeId :=
  (s.find? scope (String.ofList (name ++ [':']))).bind s.namespaceIn?

end Store

namespace Frame

/-- The place that a failure in this frame has. -/
def site (f : Frame) (span : Span) : Site := ⟨f.source, span, f.label⟩

/-- The frame with another label. -/
def labelled (f : Frame) (label : String) : Frame := { f with label }

/-- The frame with other ports. -/
def withPorts (f : Frame) (ports : Ports) : Frame := { f with ports }

/-- The cell of a name without a qualifier. -/
def findPlain? (f : Frame) (s : Store) (name : String) : Option CellId :=
  ((s.find? f.localScope name).or (s.find? f.upScope name)).or (s.find? f.setting.builtins name)

/-- The namespace of a qualifier that is looked up as one name. -/
def wholeNamespace? (f : Frame) (s : Store) (ns : List Char) : Option ScopeId :=
  (f.findPlain? s (String.ofList (ns ++ [':']))).bind s.namespaceIn?

/-- The namespace of a qualifier: the whole of it as one name if there is such a namespace, else one
part after the other. -/
def findNamespace? (f : Frame) (s : Store) (ns : List Char) : Option ScopeId :=
  (f.wholeNamespace? s ns).or <|
    (splitAtFirst ':' ns).bind fun (outer, inner) =>
      (f.wholeNamespace? s outer).bind fun start =>
        (splitOn ':' inner).foldlM s.namespaceNamed? start

/-- What a qualified name stands for. -/
def find? (f : Frame) (s : Store) (ns name : String) : Option Place :=
  match ns with
  | "" => (f.findPlain? s name).map .cell
  | "local" => (s.find? f.localScope name).map .cell
  | "up" => (s.find? f.upScope name).map .cell
  | "builtin" => (s.find? f.setting.builtins name).map .cell
  | "E" => some (.environment name)
  | "e" =>
    match name.toList.getLast? with
    | some '~' => some (.transient (.function (.external (String.ofList name.toList.dropLast))))
    | _ => none
  | _ => (f.findNamespace? s ns.toList).bind fun scope => (s.find? scope name).map .cell

section Plain

variable {f : Frame} {s : Store} {name : String} {c : CellId}

/-- What the local scope has hides everything else. -/
theorem findPlain?_of_local (h : s.find? f.localScope name = some c) : f.findPlain? s name = some c := by
  rw [findPlain?, h]
  rfl

theorem find?_of_plain (h : f.findPlain? s name = some c) : f.find? s "" name = some (.cell c) := by
  show (f.findPlain? s name).map Place.cell = _
  rw [h]
  rfl

end Plain

end Frame

/-- The value at a place. -/
def World.valueAt (w : World) : Place → Value
  | .cell c => w.store.read c
  | .transient v => v
  | .environment name => w.environment.read name

namespace Eval

/-- The value of a variable that has to exist. -/
def readVariable (f : Frame) (ns name : String) : Eval Value := do
  let w ← get
  match f.find? w.store ns name with
  | some place => return w.valueAt place
  | none => fault (.variableNotFound (qualifiedName ns name))

/-- What the name of a command stands for: the function of that name, or else a command of the
system. -/
def findCommand (f : Frame) (name : String) : Eval Callable := do
  let (ns, base) := splitCommandName name
  let w ← get
  match f.find? w.store ns (base ++ "~") with
  | none => return .external name
  | some place =>
    match w.valueAt place with
    | .function callable => return callable
    | _ => fault .shouldBeFunction

/-- Assigns to what a name stands for. -/
def writePlace (place : Place) (v : Value) : Eval (Except Fault Unit) :=
  match place with
  | .cell c => tryCell c fun cell => cell.assign v
  | .transient _ => return .ok ()
  | .environment name => tryEnvironment fun e => e.set name v

/-- A closure over the variables that are visible now. -/
def close (f : Frame) (lambda : Lambda) (isFunction : Bool) : Eval Callable := do
  let captured ← updateStore fun s => s.overlay f.upScope f.localScope
  let id ← updateStore Store.newIdentity
  return .closure ⟨id, lambda, captured, f.source, isFunction⟩

end Eval

end ValueShell
