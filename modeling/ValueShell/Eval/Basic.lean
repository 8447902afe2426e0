/-
  Evaluation: what every operation, expression and builtin is.

  An evaluation is a function from one world to the next, which ends with a result or with the reason
  why there is none.  The world is kept in either case: what was written before a failure stays
  written.  Of the reasons, an `unwind` is part of the language, and is what boundaries such as loops,
  calls and `try` look at; the others end everything.
-/
import ValueShell.World.Basic

namespace ValueShell

/-- Why an evaluation has no result. -/
inductive Stop
  /-- an exception or a signal -/
  | unwind (unwind : Unwind)
  /-- the program asked to end -/
  | exit (code : Int)
  /-- an import waits for a module that another stage loads, and no other stage goes on -/
  | blocked
  /-- the bound on nested evaluations was reached -/
  | outOfFuel
deriving DecidableEq, Repr, Inhabited

/-- A computation on the world that may stop early. -/
abbrev Eval (α : Type) := ExceptT Stop (StateM World) α

namespace Eval

/-! ## Failing, and seeing failures -/

/-- Writes an event down. -/
def note (e : Event) : Eval Unit := modify (World.note · e)

/-- Fails with a fault that has no place yet. -/
def fault {α : Type} (f : Fault) : Eval α := do
  note (.raised f)
  throw (.unwind (.ofFault f))

/-- The result, or the fault as a failure. -/
def ofExcept {α : Type} : Except Fault α → Eval α
  | .ok a => pure a
  | .error f => fault f

/-- Changes the reason why an evaluation stops. -/
def mapStop {α : Type} (change : Stop → Stop) (x : Eval α) : Eval α := fun w =>
  match x w with
  | (.ok a, w) => (.ok a, w)
  | (.error stop, w) => (.error (change stop), w)

/-- Gives a failure its place, unless it has one. -/
def located {α : Type} (site : Site) (x : Eval α) : Eval α :=
  x.mapStop fun
    | .unwind u => .unwind (u.located site)
    | other => other

/-- Runs an evaluation and answers how it ended, if it ended with a result or an unwind. -/
def settle {α : Type} (x : Eval α) : Eval (Except Unwind α) := fun w =>
  match x w with
  | (.ok a, w) => (.ok (.ok a), w)
  | (.error (.unwind u), w) => (.ok (.error u), w)
  | (.error other, w) => (.error other, w)

/-- Ends as a settled evaluation did. -/
def resume {α : Type} : Except Unwind α → Eval α
  | .ok a => pure a
  | .error u => throw (.unwind u)

/-- Runs the body of a loop and answers whether the loop goes on: `continue` ends the body, `break`
the loop. -/
def loopBody (x : Eval Unit) : Eval Bool := do
  match ← settle x with
  | .ok () => return true
  | .error (.signal .continue) => return true
  | .error (.signal .break) => return false
  | .error u => throw (.unwind u)

/-- Runs a call that `return` ends. -/
def returning (x : Eval Unit) : Eval Unit := do
  match ← settle x with
  | .error (.signal .return) => return ()
  | outcome => resume outcome

/-- Takes the steps for the given items in order, until one says not to go on. -/
def forEach {α : Type} (step : α → Eval Bool) : List α → Eval Unit
  | [] => return ()
  | item :: rest => do
    if ← step item then forEach step rest

/-! ## The parts of the world -/

/-- Changes the store. -/
def updateStore {α : Type} (change : Store → α × Store) : Eval α :=
  fun ⟨store, streams, modules, environment, files, journal⟩ =>
    let (a, store) := change store
    (.ok a, ⟨store, streams, modules, environment, files, journal⟩)

/-- Changes the streams. -/
def updateStreams {α : Type} (change : Streams → α × Streams) : Eval α :=
  fun ⟨store, streams, modules, environment, files, journal⟩ =>
    let (a, streams) := change streams
    (.ok a, ⟨store, streams, modules, environment, files, journal⟩)

@[simp] theorem updateStore_run {α : Type} (change : Store → α × Store) (w : World) :
    updateStore change w = (.ok (change w.store).1, { w with store := (change w.store).2 }) := rfl

@[simp] theorem updateStreams_run {α : Type} (change : Streams → α × Streams) (w : World) :
    updateStreams change w =
      (.ok (change w.streams).1, { w with streams := (change w.streams).2 }) := rfl

/-- Changes a cell, unless the change is refused. -/
def tryCell {ε : Type} (c : CellId) (change : Cell → Except ε Cell) : Eval (Except ε Unit) := do
  match (← get).store.cell? c with
  | none => return .ok ()
  | some cell =>
    match change cell with
    | .error e => return .error e
    | .ok cell => updateStore fun s => (.ok (), s.setCell c cell)

/-- On the store it is `Store.changeCell`. -/
theorem tryCell_run {ε : Type} (c : CellId) (change : Cell → Except ε Cell) (w : World) :
    tryCell c change w =
      match w.store.changeCell c change with
      | .ok store => (.ok (.ok ()), { w with store })
      | .error e => (.ok (.error e), w) := by
  simp only [tryCell, Store.changeCell, bind, ExceptT.bind, ExceptT.mk, StateT.bind, get, getThe,
    MonadStateOf.get, liftM, monadLift, MonadLift.monadLift, ExceptT.lift, Functor.map, StateT.map,
    StateT.get, pure, ExceptT.bindCont]
  cases w.store.cell? c with
  | none => rfl
  | some cell =>
    dsimp only
    cases change cell <;> rfl

/-- A change of the environment that may be refused. -/
def tryEnvironment {ε : Type} (change : Environment → Except ε Environment) :
    Eval (Except ε Unit) := do
  let w ← get
  match change w.environment with
  | .ok environment => do
    set { w with environment }
    return .ok ()
  | .error e => return .error e

/-- Puts a value out. -/
def put (ports : Ports) (v : Value) : Eval Unit :=
  updateStreams fun s => ((), s.put ports.values v)

/-- Writes bytes. -/
def writeBytes (ports : Ports) (bytes : List UInt8) : Eval Unit :=
  updateStreams fun s => ((), s.write ports.bytes bytes)

/-- Writes text. -/
def writeText (ports : Ports) (text : String) : Eval Unit :=
  writeBytes ports (Utf8.encode text.toList)

/-- Takes the next value of a queue. -/
def takeFrom (q : QueueId) : Eval (Option Value) :=
  updateStreams fun s =>
    match s.next? q with
    | some v => (some v, s.skip q)
    | none => (none, s)

/-- Takes the next `count` values of a queue, until a step says not to go on. -/
def takeEach (q : QueueId) (step : Value → Eval Bool) : Nat → Eval Unit
  | 0 => return ()
  | count + 1 => do
    match ← takeFrom q with
    | none => return ()
    | some v => if ← step v then takeEach q step count

/-- Takes the values of the input until a step says not to go on.  Nothing is added to a queue once
it is read, since the stage that fills it has ended. -/
def eachInput (ports : Ports) (step : Value → Eval Bool) : Eval Unit :=
  match ports.input with
  | none => return ()
  | some q => do takeEach q step ((← get).streams.waiting q).length

end Eval

end ValueShell
