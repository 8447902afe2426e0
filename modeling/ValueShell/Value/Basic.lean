/-
  Values of the shell language.

  A closed set of kinds.  Lists and maps are values, not places: replacing an element makes a new
  container, and writing it back is the business of whoever holds the variable.  Functions,
  namespaces and exceptions have an IDENTITY, which is what their equality compares: a closure and an
  exception carry the number they were given when they were made, a namespace is the name of a scope
  in the store.

  The entries of a map are in ascending order of their keys; `Value.WellFormed` says so at every
  depth.
-/
import ValueShell.Failure.Unwind
import ValueShell.Number.Format
import ValueShell.Number.Numeral
import ValueShell.Operation.Tree
import ValueShell.Table
import ValueShell.Text.Alphanumeric
import ValueShell.Value.Builtin

namespace ValueShell

/-- The name of a variable's cell in the store. -/
structure CellId where
  index : Nat
deriving DecidableEq, Repr, Inhabited

/-- The name of a scope in the store. -/
structure ScopeId where
  index : Nat
deriving DecidableEq, Repr, Inhabited

/-- A lambda together with the variables that were visible where it was made. -/
structure Closure where
  /-- tells closures apart -/
  id : Nat
  lambda : Lambda
  /-- the visible variables, as a scope of its own that shares their cells -/
  captured : ScopeId
  source : Source
  /-- bound by `fn`: every call of it absorbs `return` -/
  isFunction : Bool

/-- What can be called. -/
inductive Callable
  | closure (closure : Closure)
  | builtin (builtin : Builtin)
  /-- a command of the system, found when it is run -/
  | external (name : String)

/-- A value. -/
inductive Value
  | text (text : String)
  | number (number : Float)
  | bool (bool : Bool)
  | list (items : List Value)
  | map (entries : List (String × Value))
  | function (callable : Callable)
  | ns (scope : ScopeId)
  | exception (id : Nat) (exception : Exception)

instance : Inhabited Value := ⟨.text ""⟩

namespace Callable

/-- How a function is shown. -/
def text : Callable → String
  | closure c => "<closure " ++ c.source.name ++ ":" ++ c.lambda.span.text ++ ">"
  | builtin b => "<builtin " ++ b.name ++ ">"
  | external name => "<external " ++ name ++ ">"

/-- Whether two functions are the same one. -/
def same : Callable → Callable → Bool
  | closure a, closure b => a.id == b.id
  | builtin a, builtin b => a == b
  | external a, external b => a == b
  | _, _ => false

end Callable

namespace Value

/-- The name of the kind. -/
def kind : Value → String
  | text _ => "string"
  | number _ => "number"
  | bool _ => "bool"
  | list _ => "list"
  | map _ => "map"
  | function _ => "fn"
  | ns _ => "ns"
  | exception .. => "exception"

/-- Whether the value counts as true: all do except `$false`, the empty text and exceptions. -/
def truthy : Value → Bool
  | bool b => b
  | text s => s != ""
  | exception .. => false
  | _ => true

mutual

/-- Whether two values are equal.  Numbers compare as numbers; functions, namespaces and exceptions
by identity. -/
def same : Value → Value → Bool
  | text a, text b => a == b
  | number a, number b => a == b
  | bool a, bool b => a == b
  | list as, list bs => sameItems as bs
  | map as, map bs => sameEntries as bs
  | function a, function b => a.same b
  | ns a, ns b => a == b
  | exception a _, exception b _ => a == b
  | _, _ => false

/-- Equality of lists, item by item. -/
def sameItems : List Value → List Value → Bool
  | [], [] => true
  | a :: as, b :: bs => same a b && sameItems as bs
  | _, _ => false

/-- Equality of maps, entry by entry. -/
def sameEntries : List (String × Value) → List (String × Value) → Bool
  | [], [] => true
  | (j, a) :: as, (k, b) :: bs => j == k && same a b && sameEntries as bs
  | _, _ => false

end

mutual

/-- Every map inside the value has its entries in ascending order of the keys. -/
def WellFormed : Value → Prop
  | list items => WellFormedItems items
  | map entries => Table.Sorted entries ∧ WellFormedEntries entries
  | _ => True

/-- Every item is well-formed. -/
def WellFormedItems : List Value → Prop
  | [] => True
  | v :: vs => WellFormed v ∧ WellFormedItems vs

/-- Every entry is well-formed. -/
def WellFormedEntries : List (String × Value) → Prop
  | [] => True
  | (_, v) :: es => WellFormed v ∧ WellFormedEntries es

end

/-! ## Text of a value -/

/-- Whether `c` may stand in a word that needs no quotes. -/
def isPlainChar (c : Char) : Bool :=
  isAlphanumeric c || ['-', '_', ':', '%', '+', ',', '.', '/', '@', '!'].contains c

/-- A text in single quotes, each quote inside it written twice. -/
def inQuotes (cs : List Char) : List Char :=
  '\'' :: cs.flatMap (fun c => if c = '\'' then ['\'', '\''] else [c]) ++ ['\'']

/-- A text as a word of the language: bare if it reads back so, else in quotes. -/
def quoted (s : String) : String :=
  if s ≠ "" ∧ s.toList.all isPlainChar then s else String.ofList (inQuotes s.toList)

mutual

/-- The plain rendering, in which a text stands for itself. -/
def display : Value → String
  | text s => s
  | number n => numberText n
  | bool true => "$true"
  | bool false => "$false"
  | list items => "[" ++ String.intercalate " " (reprItems items) ++ "]"
  | map [] => "[&]"
  | map entries => "[" ++ String.intercalate " " (reprEntries entries) ++ "]"
  | function f => f.text
  | ns _ => "<ns>"
  | exception _ e => "<exception: " ++ e.fault.message ++ ">"

/-- The rendering of the items of a list. -/
def reprItems : List Value → List String
  | [] => []
  | text s :: rest => quoted s :: reprItems rest
  | v :: rest => display v :: reprItems rest

/-- The rendering of the entries of a map. -/
def reprEntries : List (String × Value) → List String
  | [] => []
  | (key, text s) :: rest => ("&" ++ quoted key ++ "=" ++ quoted s) :: reprEntries rest
  | (key, v) :: rest => ("&" ++ quoted key ++ "=" ++ display v) :: reprEntries rest

end

/-- The rendering as the language writes the value, used inside containers and for printing. -/
def repr : Value → String
  | text s => quoted s
  | v => display v

/-! ## Values as numbers, words and keys -/

/-- The value as a number, for arithmetic. -/
def toNumber : Value → Except Fault Float
  | number n => .ok n
  | text s =>
    match readNumber s.toList with
    | some n => .ok n
    | none => .error (.wrongArgument "number" (quoted s))
  | v => .error (.wrongArgument "number" v.kind)

/-- The value as a word; numbers are taken in their printed form. -/
def toWord : Value → Except Fault String
  | text s => .ok s
  | number n => .ok (numberText n)
  | v => .error (.wrongArgument "string" v.kind)

/-- The value as the key of a map. -/
def toKey : Value → Except Fault String
  | text s => .ok s
  | number n => .ok (numberText n)
  | v => .error (.wrongArgument "string map key" v.kind)

/-! ## Elements -/

/-- The integer an index stands for. -/
def toIndex : Value → Except Fault Int
  | text s =>
    match readIndex s.toList with
    | some n => .ok n
    | none => .error (.badIndex (quoted s))
  | number n =>
    match Binary64.ofFloat? n with
    | some b =>
      if b.isIntegral then .ok (max leastInt64 (min greatestInt64 b.truncate))
      else .error (.badIndex (numberText n))
    | none => .error (.badIndex (numberText n))
  | v => .error (.badIndex v.repr)

/-- The position an index denotes among `length` elements; negative ones count from the end. -/
def toPosition (index : Value) (length : Nat) : Except Fault Nat := do
  let n ← index.toIndex
  let position := if n < 0 then n + length else n
  if 0 ≤ position ∧ position < length then return position.toNat else throw .indexOutOfRange

/-- The elements in order: of a list its items, of a map its keys, of a text its characters. -/
def elements : Value → Except Fault (List Value)
  | list items => .ok items
  | map entries => .ok (entries.map fun e => .text e.1)
  | text s => .ok (s.toList.map fun c => .text (String.singleton c))
  | v => .error (.notIterable v.kind)

/-- The element at an index: lists and texts take positions, maps take keys. -/
def index (container key : Value) : Except Fault Value :=
  match container with
  | list items => do
    let i ← key.toPosition items.length
    return items.getD i (.text "")
  | map entries => do
    let k ← key.toKey
    match Table.find? entries k with
    | some v => return v
    | none => throw (.noSuchKey k)
  | text s => do
    let i ← key.toPosition s.toList.length
    return .text (String.singleton (s.toList.getD i ' '))
  | v => throw (.notIndexable v.kind)

/-- Whether elements of the value can be replaced. -/
def isContainer : Value → Bool
  | list _ | map _ => true
  | _ => false

/-- The container with one element replaced; a map takes new keys as well. -/
def assoc (container key value : Value) : Except Fault Value :=
  match container with
  | list items => do
    let i ← key.toPosition items.length
    return .list (items.set i value)
  | map entries => do
    let k ← key.toKey
    return .map (Table.insert entries k value)
  | v => throw (.notAssignable v.kind)

/-- The map without a key; an absent key changes nothing. -/
def dissoc (container key : Value) : Except Fault Value :=
  match container with
  | map entries => do
    let k ← key.toKey
    return .map (Table.erase entries k)
  | _ => throw .notRemovable

end Value

end ValueShell
