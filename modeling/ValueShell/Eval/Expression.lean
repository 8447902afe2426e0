/-
  Expressions.

  An expression has any number of values.  A compound word is a PRODUCT: one text for every choice of
  a value of each part, the leftmost part varying slowest.  Indexing is a product too, of the values
  indexed and the keys of each pair of brackets.
-/
import ValueShell.Eval.Runner

namespace ValueShell

open Eval

/-- The texts so far, each followed by each of the values; no value is looked at if there are no
texts. -/
def appendEach (texts : List String) (values : List Value) : Except Fault (List String) :=
  if texts.isEmpty then .ok []
  else (values.mapM Value.toWord).map fun words => texts.flatMap fun t => words.map (t ++ ·)

namespace Runner

variable (r : Runner)

/-- The element of every value at every key between the brackets. -/
def indexAll (f : Frame) (heads : List Value) (bracket : IndexBracket) : Eval (List Value) := do
  let keys ← r.exprs f bracket.items
  let found ← heads.mapM fun head =>
    keys.mapM fun key => (ofExcept (head.index key)).located (f.site bracket.span)
  return found.flatten

/-- The texts of a compound word, read onto the texts so far. -/
def compoundOnto (f : Frame) (texts : List String) : List Expr → Eval (List String)
  | [] => return texts
  | part :: parts => do
    let values ← r.expr part f
    let texts ← ofExcept (appendEach texts values)
    compoundOnto f texts parts

/-- The entries of a map, read onto the ones so far; the last of equal keys counts. -/
def mapOnto (f : Frame) (entries : Table Value) : List (Expr × Expr) → Eval (Table Value)
  | [] => return entries
  | (key, value) :: pairs => do
    let k ← r.single "map key" key f
    let v ← r.single "map value" value f
    let k ← ofExcept k.toKey
    mapOnto f (entries.insert k v) pairs

/-- The output of an operation as values. -/
def capture (op : Operation) (f : Frame) : Eval (List Value) := do
  let q ← updateStreams fun s => s.newQueue []
  let b ← updateStreams Streams.newBuffer
  r.operation op (f.withPorts ⟨f.ports.input, .queue q, .buffer b⟩)
  return ((← get).streams.captured q b).all

/-- The values of an expression. -/
def evaluate (e : Expr) (f : Frame) : Eval (List Value) :=
  located (f.site e.span) <|
    match e with
    | .literal text _ => return [.text text]
    | .reference ref _ => do
      let v ← readVariable f ref.ns ref.name
      if ref.explode then ofExcept v.elements else return [v]
    | .index head brackets _ => do
      let heads ← r.expr head f
      brackets.foldlM (r.indexAll f) heads
    | .list items _ => return [.list (← r.exprs f items)]
    | .map pairs _ => return [.map (← r.mapOnto f [] pairs)]
    | .lambda lambda => return [.function (← close f lambda false)]
    | .capture op _ => r.capture op f
    | .compound parts _ => return (← r.compoundOnto f [""] parts).map Value.text
    | .sequence parts _ => r.exprs f parts

end Runner

end ValueShell
