/-
  Elements deep inside a value.

  A PATH is a list of indices, applied one after the other.  Reading follows it down; writing and
  removing follow it down and rebuild every container on the way back up.  A failure says at which
  LEVEL it happened: level `k` is the `k`-th index of the path, counted from one.
-/
import ValueShell.Value.Basic

namespace ValueShell

/-- A failed element operation. -/
structure ElementError where
  /-- the index at fault, counted from one; none if the failure concerns the variable as a whole -/
  level : Option Nat
  fault : Fault
deriving DecidableEq, Repr, Inhabited

namespace ElementError

/-- A failure at one index of the path. -/
def atLevel (level : Nat) (fault : Fault) : ElementError := ⟨some level, fault⟩

/-- A failure of the whole. -/
def whole (fault : Fault) : ElementError := ⟨none, fault⟩

end ElementError

/-- Blames a fault on one index of a path. -/
def blame {α : Type} (level : Nat) (result : Except Fault α) : Except ElementError α :=
  result.mapError (ElementError.atLevel level)

namespace Value

/-- The element at a path whose first index has the given level. -/
def getPathFrom (level : Nat) (v : Value) : List Value → Except ElementError Value
  | [] => .ok v
  | key :: path => do
    let child ← blame level (v.index key)
    getPathFrom (level + 1) child path

/-- The element at a path. -/
def getPath (v : Value) (path : List Value) : Except ElementError Value := getPathFrom 1 v path

/-- The value with the element at a path replaced, the first index having the given level. -/
def setPathFrom (level : Nat) (v new : Value) : List Value → Except ElementError Value
  | [] => .ok new
  | [key] => blame level (v.assoc key new)
  | key :: path => do
    let child ← blame level (v.index key)
    let child ← setPathFrom (level + 1) child new path
    blame level (v.assoc key child)

/-- The value with the element at a path replaced. -/
def setPath (v : Value) (path : List Value) (new : Value) : Except ElementError Value :=
  setPathFrom 1 v new path

/-- Checks that the element at a path can be assigned: every container on the way supports it, and
every index but the last exists.  The last one may be a new key. -/
def checkPathFrom (level : Nat) (v : Value) : List Value → Except ElementError Unit
  | [] => .ok ()
  | key :: path =>
    if !v.isContainer then .error (.atLevel level (.notAssignable v.kind))
    else if path.isEmpty then .ok ()
    else do
      let child ← blame level (v.index key)
      checkPathFrom (level + 1) child path

/-- Checks that the element at a path can be assigned. -/
def checkPath (v : Value) (path : List Value) : Except ElementError Unit := checkPathFrom 1 v path

/-- The value without the element at a path, the first index having the given level. -/
def removePathFrom (level : Nat) (v : Value) : List Value → Except ElementError Value
  | [] => .ok v
  | [key] => blame level (v.dissoc key)
  | key :: path => do
    let child ← blame level (v.index key)
    let child ← removePathFrom (level + 1) child path
    blame level (v.assoc key child)

/-- The value without the element at a path. -/
def removePath (v : Value) (path : List Value) : Except ElementError Value := removePathFrom 1 v path

end Value

end ValueShell
