/-
  Faults that have nothing to do with names.

  Two faults report that a variable is missing: `variableNotFound`, and `missingBase` for the base of an
  element.  All others are ORDINARY.  The operations on values, cells, paths and the environment do not
  look anything up in a scope, so they fail with ordinary faults only.
-/
import ValueShell.Eval.Builtins
import ValueShell.Eval.Expression
import ValueShell.Eval.Import
import ValueShell.Proofs.Carried

namespace ValueShell

/-- The fault does not report that a variable is missing. -/
def Fault.Ordinary : Fault → Prop
  | variableNotFound _ | missingBase _ => False
  | _ => True

/-- If the operation fails, what it fails with satisfies `P`. -/
def FailsWith {ε α : Type} (P : ε → Prop) (r : Except ε α) : Prop := ∀ e, r = .error e → P e

/-- The fault of an element error is ordinary. -/
def ElementError.Ordinary (e : ElementError) : Prop := e.fault.Ordinary

section Rules

variable {ε δ α β : Type} {P : ε → Prop} {Q : δ → Prop}

/-- What succeeds does not fail. -/
theorem failsWith_ok {a : α} : FailsWith P (.ok a) := fun _ h => nomatch h

theorem failsWith_error {e : ε} (h : P e) : FailsWith P (.error e : Except ε α) := fun _ he => by
  cases he
  exact h

/-- A sequence fails as one of its parts. -/
theorem failsWith_bind {x : Except ε α} {k : α → Except ε β} (hx : FailsWith P x)
    (hk : ∀ a, FailsWith P (k a)) : FailsWith P (x >>= k) := by
  cases x with
  | error e => exact failsWith_error (hx e rfl)
  | ok a => exact hk a

theorem failsWith_map {x : Except ε α} {g : α → β} (hx : FailsWith P x) :
    FailsWith P (x.map g) := by
  cases x with
  | error e => exact failsWith_error (hx e rfl)
  | ok a => exact failsWith_ok

/-- A change of the error changes what it satisfies. -/
theorem failsWith_mapError {x : Except ε α} {g : ε → δ} (hx : FailsWith (fun e => Q (g e)) x) :
    FailsWith Q (x.mapError g) := by
  cases x with
  | error e => exact failsWith_error (hx e rfl)
  | ok a => exact failsWith_ok

/-- A list of steps fails as one of them. -/
theorem failsWith_mapM {step : α → Except ε β} (h : ∀ a, FailsWith P (step a)) (items : List α) :
    FailsWith P (items.mapM step) := by
  induction items with
  | nil => exact failsWith_ok
  | cons item rest ih =>
    rw [List.mapM_cons]
    exact failsWith_bind (h item) fun _ => failsWith_bind ih fun _ => failsWith_ok

end Rules

/-! ## Values -/

namespace Value

/-- Values fail to be numbers for reasons that have nothing to do with names, -/
theorem toNumber_fails (v : Value) : FailsWith Fault.Ordinary v.toNumber := by
  unfold toNumber
  split
  · exact failsWith_ok
  · split
    · exact failsWith_ok
    · exact failsWith_error trivial
  · exact failsWith_error trivial

/-- and so they fail to be words, -/
theorem toWord_fails (v : Value) : FailsWith Fault.Ordinary v.toWord := by
  unfold toWord
  split
  · exact failsWith_ok
  · exact failsWith_ok
  · exact failsWith_error trivial

/-- keys, -/
theorem toKey_fails (v : Value) : FailsWith Fault.Ordinary v.toKey := by
  unfold toKey
  split
  · exact failsWith_ok
  · exact failsWith_ok
  · exact failsWith_error trivial

/-- indices, -/
theorem toIndex_fails (v : Value) : FailsWith Fault.Ordinary v.toIndex := by
  unfold toIndex
  split
  · split
    · exact failsWith_ok
    · exact failsWith_error trivial
  · split
    · split
      · exact failsWith_ok
      · exact failsWith_error trivial
    · exact failsWith_error trivial
  · exact failsWith_error trivial

/-- and positions in a list. -/
theorem toPosition_fails (v : Value) (length : Nat) :
    FailsWith Fault.Ordinary (v.toPosition length) := by
  refine failsWith_bind (toIndex_fails v) fun n => ?_
  generalize (if n < 0 then n + length else n) = position
  show FailsWith _ (if 0 ≤ position ∧ position < length then _ else _)
  split
  · exact failsWith_ok
  · exact failsWith_error trivial

/-- Some values have no elements. -/
theorem elements_fails (v : Value) : FailsWith Fault.Ordinary v.elements := by
  unfold elements
  split
  · exact failsWith_ok
  · exact failsWith_ok
  · exact failsWith_ok
  · exact failsWith_error trivial

/-- A key that is not there is an ordinary fault. -/
theorem index_fails (v key : Value) : FailsWith Fault.Ordinary (v.index key) := by
  unfold index
  split
  · exact failsWith_bind (toPosition_fails _ _) fun _ => failsWith_ok
  · refine failsWith_bind (toKey_fails _) fun k => ?_
    split
    · exact failsWith_ok
    · exact failsWith_error trivial
  · exact failsWith_bind (toPosition_fails _ _) fun _ => failsWith_ok
  · exact failsWith_error trivial

/-- So is a container that takes no such key, -/
theorem assoc_fails (v key new : Value) : FailsWith Fault.Ordinary (v.assoc key new) := by
  unfold assoc
  split
  · exact failsWith_bind (toPosition_fails _ _) fun _ => failsWith_ok
  · exact failsWith_bind (toKey_fails _) fun _ => failsWith_ok
  · exact failsWith_error trivial

/-- or one that nothing can be removed from. -/
theorem dissoc_fails (v key : Value) : FailsWith Fault.Ordinary (v.dissoc key) := by
  unfold dissoc
  split
  · exact failsWith_bind (toKey_fails _) fun _ => failsWith_ok
  · exact failsWith_error trivial

/-! ## Paths -/

/-- A failure at a level of a path is ordinary if its fault is. -/
theorem blame_fails {α : Type} {r : Except Fault α} (level : Nat)
    (h : FailsWith Fault.Ordinary r) : FailsWith ElementError.Ordinary (blame level r) :=
  failsWith_mapError h

/-- To set an element fails as the steps down the path do. -/
theorem setPathFrom_fails (new : Value) : ∀ (path : List Value) (level : Nat) (v : Value),
    FailsWith ElementError.Ordinary (v.setPathFrom level new path)
  | [], _, _ => failsWith_ok
  | [_], _, _ => blame_fails _ (assoc_fails _ _ _)
  | _ :: second :: rest, level, _ =>
    failsWith_bind (blame_fails _ (index_fails _ _)) fun child =>
      failsWith_bind (setPathFrom_fails new (second :: rest) (level + 1) child) fun _ =>
        blame_fails _ (assoc_fails _ _ _)

/-- So does removing one. -/
theorem removePathFrom_fails : ∀ (path : List Value) (level : Nat) (v : Value),
    FailsWith ElementError.Ordinary (v.removePathFrom level path)
  | [], _, _ => failsWith_ok
  | [_], _, _ => blame_fails _ (dissoc_fails _ _)
  | _ :: second :: rest, level, _ =>
    failsWith_bind (blame_fails _ (index_fails _ _)) fun child =>
      failsWith_bind (removePathFrom_fails (second :: rest) (level + 1) child) fun _ =>
        blame_fails _ (assoc_fails _ _ _)

/-- And so does checking a path. -/
theorem checkPathFrom_fails (path : List Value) (level : Nat) (v : Value) :
    FailsWith ElementError.Ordinary (v.checkPathFrom level path) := by
  induction path generalizing level v with
  | nil => exact failsWith_ok
  | cons key path ih =>
    unfold checkPathFrom
    split
    · exact failsWith_error trivial
    · split
      · exact failsWith_ok
      · exact failsWith_bind (blame_fails _ (index_fails _ _)) fun child => ih _ child

end Value

/-! ## Cells, the environment and modules -/

/-- A cell refuses values for ordinary reasons: it is read-only, or its validator says no. -/
theorem Cell.assign_fails (c : Cell) (v : Value) : FailsWith Fault.Ordinary (c.assign v) := by
  unfold Cell.assign
  split
  · exact failsWith_error trivial
  · split
    · next constraint _ =>
      refine failsWith_map ?_
      unfold Constraint.check
      split
      · exact failsWith_ok
      · exact failsWith_error trivial
      · exact failsWith_ok
      · exact failsWith_error trivial
    · exact failsWith_ok

/-- An element is refused for the same reasons, or because of its path. -/
theorem Cell.assignElement_fails (c : Cell) (path : List Value) (v : Value) :
    FailsWith ElementError.Ordinary (c.assignElement path v) :=
  failsWith_bind (Value.setPathFrom_fails v path 1 c.value) fun _ =>
    failsWith_mapError (Cell.assign_fails c _)

theorem Cell.removeElement_fails (c : Cell) (path : List Value) :
    FailsWith ElementError.Ordinary (c.removeElement path) := by
  unfold Cell.removeElement
  split
  · exact failsWith_ok
  · exact failsWith_bind (Value.removePathFrom_fails path 1 c.value) fun _ =>
      failsWith_mapError (Cell.assign_fails c _)

namespace Environment

/-- Names of the environment are checked for a few characters. -/
theorem checkName_fails (name : String) : FailsWith Fault.Ordinary (checkName name) := by
  unfold checkName
  split
  · exact failsWith_error trivial
  · exact failsWith_ok

theorem set_fails (e : Environment) (name : String) (v : Value) :
    FailsWith Fault.Ordinary (e.set name v) := by
  refine failsWith_bind (checkName_fails name) fun _ => ?_
  dsimp only
  split
  · exact failsWith_error trivial
  · exact failsWith_ok

theorem unset_fails (e : Environment) (name : String) :
    FailsWith Fault.Ordinary (e.unset name) :=
  failsWith_bind (checkName_fails name) fun _ => failsWith_ok

end Environment

/-- A module that is in no library is an ordinary fault. -/
theorem Library.findSource_fails (l : Library) (files : FileTree) (path : String) :
    FailsWith Fault.Ordinary (l.findSource files path) := by
  unfold findSource
  split
  · split
    · exact failsWith_ok
    · exact failsWith_error trivial
  · dsimp only
    split
    · exact failsWith_ok
    · split
      · exact failsWith_ok
      · exact failsWith_error trivial
    · exact failsWith_error trivial

/-- So is a path that leads out of it. -/
theorem resolvePath_fails (source : Source) (target : String) :
    FailsWith Fault.Ordinary (resolvePath source target) := by
  refine failsWith_map ?_
  have inside (joined : List Char) : FailsWith Fault.Ordinary (do
      if ModulePath.escapes (ModulePath.clean joined) then throw .importOutsideLibrary
      return ModulePath.clean joined) := by
    dsimp only
    split
    · exact failsWith_error trivial
    · exact failsWith_ok
  unfold ModulePath.resolve
  split
  · split
    · exact inside _
    · exact failsWith_error trivial
  · exact inside _

/-! ## Words and arguments -/

/-- Values that cannot be joined are an ordinary fault. -/
theorem appendEach_fails (texts : List String) (values : List Value) :
    FailsWith Fault.Ordinary (appendEach texts values) := by
  unfold appendEach
  split
  · exact failsWith_ok
  · exact failsWith_map (failsWith_mapM Value.toWord_fails values)

namespace Builtin

/-- So is a number of arguments that is not one. -/
theorem only_fails (args : List Value) : FailsWith Fault.Ordinary (only args) := by
  unfold only
  split
  · exact failsWith_ok
  · exact failsWith_error trivial

theorem onlyWord_fails (args : List Value) : FailsWith Fault.Ordinary (onlyWord args) :=
  failsWith_bind (only_fails args) Value.toWord_fails

theorem exitCode_fails (args : List Value) : FailsWith Fault.Ordinary (exitCode args) := by
  unfold exitCode
  split
  · exact failsWith_ok
  · refine failsWith_bind (Value.toNumber_fails _) fun n => ?_
    split
    · exact failsWith_error trivial
    · split
      · exact failsWith_ok
      · exact failsWith_error trivial
  · exact failsWith_error trivial

theorem difference_fails (numbers : List Float) :
    FailsWith Fault.Ordinary (difference numbers) := by
  unfold difference
  split
  · exact failsWith_error trivial
  · exact failsWith_ok
  · exact failsWith_ok

end Builtin

end ValueShell
