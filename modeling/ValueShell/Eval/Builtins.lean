/-
  What the builtin commands do.

  A builtin gets the values of its arguments.  It writes to the ports of the frame it is called in,
  and reads their input if it is one of those that work on a stream.
-/
import ValueShell.Eval.Runner
import ValueShell.Json.Document
import ValueShell.World.Command

namespace ValueShell

open Eval

namespace Builtin

/-! ## Arguments -/

/-- The only argument. -/
def only : List Value → Except Fault Value
  | [v] => .ok v
  | _ => .error .arityMismatch

/-- The only argument, as a word. -/
def onlyWord (args : List Value) : Except Fault String := do (← only args).toWord

/-- Whether each of the numbers stands in the relation to the next. -/
def chain (related : Float → Float → Bool) : List Float → Bool
  | x :: y :: rest => related x y && chain related (y :: rest)
  | _ => true

/-- Whether each of the values equals the next. -/
def allEqual : List Value → Bool
  | v :: w :: rest => v.same w && allEqual (w :: rest)
  | _ => true

/-- The plain renderings with blanks between them. -/
def joined (args : List Value) : String := String.intercalate " " (args.map Value.display)

/-- The status that `exit` ends the program with. -/
def exitCode : List Value → Except Fault Int
  | [] => .ok 0
  | [v] => do
    let n ← v.toNumber
    match Binary64.ofFloat? n with
    | none => throw (.wrongArgument "integer exit code" v.repr)
    | some b =>
      if b.isIntegral ∧ -0x80000000 ≤ b.truncate ∧ b.truncate ≤ 0x7fffffff then return b.truncate
      else throw (.wrongArgument "integer exit code" v.repr)
  | _ => .error .arityMismatch

/-- The difference of the first number and the others; a single one is negated. -/
def difference : List Float → Except Fault Float
  | [] => .error .arityMismatch
  | [x] => .ok (-x)
  | x :: rest => .ok (rest.foldl (· - ·) x)

/-- The number of things counted, as a value. -/
def countValue (n : Nat) : Value := .number (Binary64.ofInt n)

/-! ## Streams -/

/-- The number of input values that are left. -/
def countInput (ports : Ports) : Eval Nat := do
  match ports.input with
  | none => return 0
  | some q => do
    let n := ((← get).streams.waiting q).length
    eachInput ports fun _ => return true
    return n

/-- The input values, as lines of one text. -/
def inputText (ports : Ports) : Eval String :=
  match ports.input with
  | none => return ""
  | some q => do go q ((← get).streams.waiting q).length ""
where
  /-- The next `left` input values, read onto `text`. -/
  go (q : QueueId) : Nat → String → Eval String
    | 0, text => return text
    | left + 1, text => do
      match ← takeFrom q with
      | none => return text
      | some v => do
        let line ← ofExcept v.toWord
        go q left (text ++ line ++ "\n")

/-- Puts out the documents of a JSON text, up to the first one that cannot be read. -/
def putJson (ports : Ports) (text : String) : Eval Unit := do
  let (documents, stop) := readJson text.toList
  documents.forM (Eval.put ports)
  match stop with
  | none => return ()
  | some .exhausted => throw .outOfFuel
  | some (.problem e) => fault (.badJson (e.message text.toList))

end Builtin

namespace Runner

variable (r : Runner)

/-- Calls a function with each input value or, if there is an argument, with each of its elements. -/
def each (args : List Value) (f : Frame) : Eval Unit := do
  match args with
  | [] => fault .arityMismatch
  | .function callable :: rest => do
    let step (v : Value) : Eval Bool := loopBody (r.call callable [v] .command f)
    match rest with
    | [] => eachInput f.ports step
    | [inputs] => forEach step (← ofExcept inputs.elements)
    | _ => fault .arityMismatch
  | other :: _ => fault (.wrongArgument "fn" other.kind)

/-- Runs a builtin. -/
def builtin (b : Builtin) (args : List Value) (f : Frame) : Eval Unit := do
  let out := put f.ports
  match b with
  | .put => args.forM out
  | .echo => writeText f.ports (Builtin.joined args ++ "\n")
  | .print => writeText f.ports (Builtin.joined args)
  | .kindOf => args.forM fun v => out (.text v.kind)
  | .nop => return ()
  | .fail => do
    let v ← ofExcept (Builtin.only args)
    fault (.failed v.display)
  | .return => if args.isEmpty then throw (.unwind (.signal .return)) else fault .arityMismatch
  | .break => if args.isEmpty then throw (.unwind (.signal .break)) else fault .arityMismatch
  | .continue =>
    if args.isEmpty then throw (.unwind (.signal .continue)) else fault .arityMismatch
  | .exit => do throw (.exit (← ofExcept (Builtin.exitCode args)))
  | .not => do out (.bool !(← ofExcept (Builtin.only args)).truthy)
  | .toBool => do out (.bool (← ofExcept (Builtin.only args)).truthy)
  | .equal => out (.bool (Builtin.allEqual args))
  | .numbersEqual => do
    out (.bool (Builtin.chain (· == ·) (← ofExcept (args.mapM Value.toNumber))))
  | .less => do
    out (.bool (Builtin.chain (fun x y => decide (x < y)) (← ofExcept (args.mapM Value.toNumber))))
  | .add => do
    out (.number ((← ofExcept (args.mapM Value.toNumber)).foldl (· + ·) 0.0))
  | .subtract => do
    let numbers ← ofExcept (args.mapM Value.toNumber)
    out (.number (← ofExcept (Builtin.difference numbers)))
  | .count =>
    match args with
    | [] => do out (Builtin.countValue (← Builtin.countInput f.ports))
    | [v] => do out (Builtin.countValue (← ofExcept v.elements).length)
    | _ => fault .arityMismatch
  | .all =>
    match args with
    | [] => eachInput f.ports fun v => do
      out v
      return true
    | [v] => do (← ofExcept v.elements).forM out
    | _ => fault .arityMismatch
  | .each => r.each args f
  | .fromJson =>
    match args with
    | [] => do Builtin.putJson f.ports (← Builtin.inputText f.ports)
    | [v] => do Builtin.putJson f.ports (← ofExcept v.toWord)
    | _ => fault .arityMismatch
  | .resolve => do
    let name ← ofExcept (Builtin.onlyWord args)
    if (SpecialForm.ofName? name).isSome then out (.text "special")
    else
      let (ns, base) := splitCommandName name
      match f.find? (← get).store ns (base ++ "~") with
      | some _ => out (.text ("$" ++ name ++ "~"))
      | none => out (.text ("(external " ++ name ++ ")"))
  | .external => do
    let name ← ofExcept (Builtin.onlyWord args)
    out (.function (.external name))
  | .hasExternal => do
    let name ← ofExcept (Builtin.onlyWord args)
    let w ← get
    out (.bool (Command.search? w.environment w.files name).isSome)
  | .searchExternal => do
    let name ← ofExcept (Builtin.onlyWord args)
    let w ← get
    match Command.search? w.environment w.files name with
    | some path => out (.text path)
    | none => fault (.commandNotFound name)

end Runner

end ValueShell
