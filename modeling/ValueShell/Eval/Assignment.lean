/-
  Assignment.

  The targets are resolved first, then the values are evaluated, then their number is checked, and
  then each target is written in order.  A name that stands for nothing yet is declared in the local
  scope when it is resolved.
-/
import ValueShell.Eval.Runner

namespace ValueShell

open Eval

/-- What an assignment target stands for. -/
inductive Destination
  | place (place : Place)
  /-- the element at a path of what a cell holds -/
  | element (cell : CellId) (path : List Value)

/-- Assigns to a destination. -/
def Destination.write : Destination → Value → Eval (Except ElementError Unit)
  | .place p, v => return (← writePlace p v).mapError .whole
  | .element c path, v => tryCell c fun cell => cell.assignElement path v

/-- A resolved target. -/
structure Resolved where
  destination : Destination
  target : Target

/-- The resolved targets of an assignment. -/
structure ResolvedTargets where
  fixed : List Resolved
  rest : Option Resolved

namespace Target

/-- The region blamed for a failure of the target. -/
def blamed (t : Target) (e : ElementError) : Span :=
  match t, e.level with
  | .element place, some level => place.spanTo level
  | t, _ => t.span

/-- Fails with an element error at its place in the target. -/
def fail {α : Type} (t : Target) (f : Frame) (e : ElementError) : Eval α :=
  (fault e.fault).located (f.site (t.blamed e))

end Target

namespace Resolved

/-- Assigns to a resolved target. -/
def write (t : Resolved) (v : Value) (f : Frame) : Eval Unit := do
  match ← t.destination.write v with
  | .ok () => return ()
  | .error e => t.target.fail f e

/-- Writes each value to its target, in order. -/
def writeEach (f : Frame) : List Resolved → List Value → Eval Unit
  | t :: ts, v :: vs => do
    t.write v f
    writeEach f ts vs
  | _, _ => return ()

end Resolved

/-- What a name stands for, declared in the local scope if need be. -/
def resolveOrDeclare (f : Frame) (ns name : String) : Eval Place := do
  match f.find? (← get).store ns name with
  | some place => return place
  | none =>
    if ns = "" ∨ ns = "local" then
      updateStore fun s =>
        let (cell, s) := s.declare name
        (.cell cell, s.bind f.localScope name cell)
    else fault .newVariableNotLocal

namespace Runner

variable (r : Runner)

/-- The key of each pair of brackets; each pair has to have one value. -/
def elementPath (f : Frame) (tooMany : Fault) (target : ElementTarget) : Eval (List Value) :=
  go 1 target.brackets
where
  /-- The keys of the brackets from number `level` on. -/
  go (level : Nat) : List IndexBracket → Eval (List Value)
    | [] => return []
    | bracket :: rest => do
      match ← r.exprs f bracket.items with
      | [key] => return key :: (← go (level + 1) rest)
      | _ => (fault tooMany).located (f.site (target.spanTo level))

/-- What an element target stands for. -/
def resolveElement (f : Frame) (e : ElementTarget) : Eval Destination := do
  match f.find? (← get).store e.ns e.name with
  | none => fault (.missingBase (qualifiedName e.ns e.name))
  | some (.environment _) =>
    (fault (.notAssignable "string")).located (f.site (e.spanTo 1))
  | some base => do
    let path ← r.elementPath f .multipleIndices e
    match ((← get).valueAt base).checkPath path with
    | .error error => (Target.element e).fail f error
    | .ok () =>
      match base with
      | .cell c => return .element c path
      | place => return .place place

/-- Resolves a target. -/
def resolveTarget (f : Frame) (t : Target) : Eval Resolved :=
  located (f.site t.span) <|
    match t with
    | .named ns name _ => return ⟨.place (← resolveOrDeclare f ns name), t⟩
    | .element e => return ⟨← r.resolveElement f e, t⟩

/-- Resolves targets in order. -/
def resolveEach (f : Frame) : List Target → Eval (List Resolved)
  | [] => return []
  | t :: ts => do
    let first ← r.resolveTarget f t
    return first :: (← resolveEach f ts)

/-- Resolves the left side of an assignment. -/
def resolveTargets (f : Frame) (t : Targets) : Eval ResolvedTargets := do
  let fixed ← r.resolveEach f t.fixed
  match t.rest with
  | none => return ⟨fixed, none⟩
  | some rest => return ⟨fixed, some (← r.resolveTarget f rest)⟩

/-- The only target, which is not a rest target; any other number is the given fault. -/
def onlyTarget (f : Frame) (otherwise : Fault) (t : Targets) : Eval Resolved := do
  match ← r.resolveTargets f t with
  | ⟨[only], none⟩ => return only
  | _ => fault otherwise

/-- An assignment. -/
def assign (targets : Targets) (values : List Expr) (f : Frame) : Eval Unit := do
  let resolved ← r.resolveTargets f targets
  let values ← r.exprs f values
  let fixed := resolved.fixed.length
  match resolved.rest with
  | none =>
    if values.length = fixed then Resolved.writeEach f resolved.fixed values
    else fault .arityMismatch
  | some rest =>
    if fixed ≤ values.length then do
      Resolved.writeEach f resolved.fixed (values.take fixed)
      rest.write (.list (values.drop fixed)) f
    else fault .arityMismatch

end Runner

end ValueShell
