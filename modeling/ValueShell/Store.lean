/-
  Variables and the scopes that name them.

  A variable is a CELL: its value, the constraint that came with its name, and whether it refuses
  every assignment.  A SCOPE maps names to cells.  Both live in the store and are referred to by
  number, so that two scopes can share a cell: a write through one is seen through the other, while
  a name bound in one stays unknown to the other.

  Cells and scopes are only ever added.  `Store.changeCell` is the one way to change what a cell holds,
  and `bind` and `unbind` the only ways to change what a scope names.
-/
import ValueShell.Value.Path

namespace ValueShell

/-- A variable. -/
structure Cell where
  value : Value
  constraint : Option Constraint
  readOnly : Bool
deriving Inhabited

namespace Constraint

/-- Refuses values that a variable so constrained may not hold. -/
def check : Constraint → Value → Except Fault Unit
  | callable, .function _ => .ok ()
  | callable, _ => .error .shouldBeFunction
  | namespaced, .ns _ => .ok ()
  | namespaced, _ => .error .shouldBeNamespace

end Constraint

namespace Cell

/-- A variable that takes any value. -/
def plain (value : Value) : Cell := ⟨value, none, false⟩

/-- A variable that refuses every assignment. -/
def constant (value : Value) : Cell := ⟨value, none, true⟩

/-- A variable with the constraint that its name asks for; the first value is not checked. -/
def forName (name : String) (value : Value) : Cell := ⟨value, Constraint.forName? name, false⟩

/-- The cell after an assignment. -/
def assign (c : Cell) (value : Value) : Except Fault Cell :=
  if c.readOnly then .error .readOnly
  else
    match c.constraint with
    | some constraint => (constraint.check value).map fun _ => { c with value }
    | none => .ok { c with value }

/-- The cell with the element at a path of what it holds replaced. -/
def assignElement (c : Cell) (path : List Value) (value : Value) : Except ElementError Cell := do
  let whole ← c.value.setPath path value
  (c.assign whole).mapError .whole

/-- The cell without the element at a path of what it holds; an empty path removes nothing. -/
def removeElement (c : Cell) (path : List Value) : Except ElementError Cell :=
  if path.isEmpty then .ok c
  else do
    let whole ← c.value.removePath path
    (c.assign whole).mapError .whole

end Cell

/-- A scope is its number. -/
theorem ScopeId.eq_of_index {a b : ScopeId} (h : a.index = b.index) : a = b := by
  cases a
  cases b
  exact congrArg _ h

/-- All variables and scopes. -/
structure Store where
  cells : Array Cell
  scopes : Array (Table CellId)
  /-- the number that the next closure or exception is told apart by -/
  nextIdentity : Nat
deriving Inhabited

namespace Store

/-- A store with nothing in it. -/
def empty : Store := ⟨#[], #[], 0⟩

/-! ## Making things -/

/-- A new cell. -/
def newCell (s : Store) (c : Cell) : CellId × Store :=
  (⟨s.cells.size⟩, { s with cells := s.cells.push c })

/-- A new scope with the given entries. -/
def newScope (s : Store) (entries : Table CellId) : ScopeId × Store :=
  (⟨s.scopes.size⟩, { s with scopes := s.scopes.push entries })

/-- A number not used before. -/
def newIdentity (s : Store) : Nat × Store :=
  (s.nextIdentity, { s with nextIdentity := s.nextIdentity + 1 })

/-- A fresh variable for `name`.  It holds the empty value of the kind its suffix asks for: the
builtin that does nothing, a namespace without names, or the empty text. -/
def declare (s : Store) (name : String) : CellId × Store :=
  match Constraint.forName? name with
  | some .callable => s.newCell (.forName name (.function (.builtin .nop)))
  | some .namespaced =>
    let (scope, s) := s.newScope []
    s.newCell (.forName name (.ns scope))
  | none => s.newCell (.forName name (.text ""))

/-! ## Cells -/

/-- The cell of the given name. -/
def cell? (s : Store) (c : CellId) : Option Cell := s.cells[c.index]?

/-- Puts a cell under a name that has one. -/
def setCell (s : Store) (c : CellId) (cell : Cell) : Store :=
  { s with cells := s.cells.setIfInBounds c.index cell }

/-- What a cell holds. -/
def read (s : Store) (c : CellId) : Value :=
  match s.cell? c with
  | some cell => cell.value
  | none => .text ""

/-- Changes a cell, unless the change is refused. -/
def changeCell {ε : Type} (s : Store) (c : CellId) (change : Cell → Except ε Cell) :
    Except ε Store :=
  match s.cell? c with
  | some cell => (change cell).map (s.setCell c)
  | none => .ok s

/-- Assigns to a cell, unless the cell refuses the value. -/
def write (s : Store) (c : CellId) (value : Value) : Except Fault Store :=
  s.changeCell c fun cell => cell.assign value

/-- Replaces the element at a path of what a cell holds. -/
def setElement (s : Store) (c : CellId) (path : List Value) (value : Value) :
    Except ElementError Store :=
  s.changeCell c fun cell => cell.assignElement path value

/-- Removes the element at a path of what a cell holds. -/
def removeElement (s : Store) (c : CellId) (path : List Value) : Except ElementError Store :=
  s.changeCell c fun cell => cell.removeElement path

/-! ## Scopes -/

/-- The entries of a scope. -/
def scope (s : Store) (scope : ScopeId) : Table CellId := s.scopes.getD scope.index []

/-- The cell a scope binds to `name`. -/
def find? (s : Store) (scope : ScopeId) (name : String) : Option CellId :=
  Table.find? (s.scope scope) name

/-- Binds `name` in a scope, in place of what it was bound to. -/
def bind (s : Store) (scope : ScopeId) (name : String) (c : CellId) : Store :=
  { s with scopes := s.scopes.modify scope.index fun t => Table.insert t name c }

/-- Removes `name` from a scope. -/
def unbind (s : Store) (scope : ScopeId) (name : String) : Store :=
  { s with scopes := s.scopes.modify scope.index fun t => Table.erase t name }

/-- The names that a scope binds, ascending. -/
def names (s : Store) (scope : ScopeId) : List String := Table.names (s.scope scope)

/-- A new scope with the entries of both, those of `inner` where both bind a name.  The cells are
shared with the two scopes, the new scope itself is not. -/
def overlay (s : Store) (outer inner : ScopeId) : ScopeId × Store :=
  s.newScope (Table.overlay (s.scope outer) (s.scope inner))

/-- A new variable, bound to `name` in a scope. -/
def bindNew (s : Store) (scope : ScopeId) (name : String) (c : Cell) : Store :=
  let (cell, s) := s.newCell c
  s.bind scope name cell

/-! ## What is where after a change -/

@[simp] theorem scope_newCell (s : Store) (c : Cell) (scope : ScopeId) :
    (s.newCell c).2.scope scope = s.scope scope := rfl

@[simp] theorem scope_setCell (s : Store) (c : CellId) (cell : Cell) (scope : ScopeId) :
    (s.setCell c cell).scope scope = s.scope scope := rfl

theorem size_newScope (s : Store) (entries : Table CellId) :
    (s.newScope entries).2.scopes.size = s.scopes.size + 1 := Array.size_push ..

/-- A new scope has its entries, and the others have theirs. -/
theorem scope_newScope (s : Store) (entries : Table CellId) (scope : ScopeId) :
    (s.newScope entries).2.scope scope =
      if scope.index = s.scopes.size then entries else s.scope scope := by
  show (s.scopes.push entries).getD scope.index [] = _
  rw [Array.getD_eq_getD_getElem?, Array.getElem?_push]
  split
  · rfl
  · rw [← Array.getD_eq_getD_getElem?]
    rfl

/-- A new scope has an identifier of its own. -/
theorem scope_newScope_of_lt (s : Store) (entries : Table CellId) {scope : ScopeId}
    (h : scope.index < s.scopes.size) : (s.newScope entries).2.scope scope = s.scope scope := by
  rw [scope_newScope, if_neg (Nat.ne_of_lt h)]

@[simp] theorem scope_newScope_self (s : Store) (entries : Table CellId) :
    (s.newScope entries).2.scope ⟨s.scopes.size⟩ = entries := by
  rw [scope_newScope, if_pos rfl]

/-- Changing the entries of one scope changes those of no other. -/
theorem getD_modify (scopes : Array (Table CellId)) (change : Table CellId → Table CellId)
    (i j : Nat) (h : i < scopes.size) :
    (scopes.modify i change).getD j [] = if i = j then change (scopes.getD i []) else
      scopes.getD j [] := by
  simp only [Array.getD_eq_getD_getElem?, Array.getElem?_modify]
  split
  · next hij =>
    subst hij
    rw [Array.getElem?_eq_getElem h]
    rfl
  · rfl

/-- A binding is in its scope. -/
theorem scope_bind_self (s : Store) {scope : ScopeId} (name : String) (c : CellId)
    (h : scope.index < s.scopes.size) :
    (s.bind scope name c).scope scope = Table.insert (s.scope scope) name c := by
  show (s.scopes.modify _ _).getD _ [] = _
  rw [getD_modify _ _ _ _ h, if_pos rfl]
  rfl

/-- The end of a binding is, too. -/
theorem scope_unbind_self (s : Store) {scope : ScopeId} (name : String)
    (h : scope.index < s.scopes.size) :
    (s.unbind scope name).scope scope = Table.erase (s.scope scope) name := by
  show (s.scopes.modify _ _).getD _ [] = _
  rw [getD_modify _ _ _ _ h, if_pos rfl]
  rfl

/-- In no other scope does a name change its cell, -/
theorem scope_bind_of_ne (s : Store) {scope other : ScopeId} (name : String) (c : CellId)
    (h : scope ≠ other) : (s.bind scope name c).scope other = s.scope other := by
  show (s.scopes.modify _ _).getD _ [] = _
  rw [Array.getD_eq_getD_getElem?, Array.getElem?_modify, if_neg fun hi => h (ScopeId.eq_of_index hi),
    ← Array.getD_eq_getD_getElem?]
  rfl

/-- or lose it. -/
theorem scope_unbind_of_ne (s : Store) {scope other : ScopeId} (name : String)
    (h : scope ≠ other) : (s.unbind scope name).scope other = s.scope other := by
  show (s.scopes.modify _ _).getD _ [] = _
  rw [Array.getD_eq_getD_getElem?, Array.getElem?_modify, if_neg fun hi => h (ScopeId.eq_of_index hi),
    ← Array.getD_eq_getD_getElem?]
  rfl

theorem size_bindNew (s : Store) (scope : ScopeId) (name : String) (c : Cell) :
    (s.bindNew scope name c).scopes.size = s.scopes.size := Array.size_modify

/-- A new variable adds its name to the scope. -/
theorem mem_names_bindNew {s : Store} {scope : ScopeId} (known : scope.index < s.scopes.size)
    (name : String) (c : Cell) {x : String} :
    x ∈ (s.bindNew scope name c).names scope ↔ x = name ∨ x ∈ s.names scope := by
  have entries : (s.bindNew scope name c).scope scope = Table.insert (s.scope scope) name _ :=
    scope_bind_self (s.newCell c).2 name _ known
  rw [names, Table.mem_names, entries, Table.find?_insert, names, Table.mem_names]
  by_cases hx : name = x
  · simp [hx]
  · simp [hx, Ne.symm hx]

/-- A cell that is set is set, if it was there. -/
theorem cell?_setCell (s : Store) (c : CellId) (cell : Cell) (other : CellId) :
    (s.setCell c cell).cell? other =
      if c = other then (s.cell? other).map fun _ => cell else s.cell? other := by
  obtain ⟨i⟩ := c
  obtain ⟨j⟩ := other
  show (s.cells.setIfInBounds i cell)[j]? = _
  rw [Array.getElem?_setIfInBounds]
  by_cases hij : i = j
  · subst hij
    rw [if_pos rfl, if_pos rfl]
    unfold cell?
    by_cases h : i < s.cells.size
    · rw [if_pos h, Array.getElem?_eq_getElem h]
      rfl
    · rw [if_neg h, Array.getElem?_eq_none (Nat.le_of_not_lt h)]
      rfl
  · rw [if_neg hij, if_neg fun h => hij (congrArg CellId.index h)]
    rfl

/-- A new cell is the next one. -/
theorem cell?_newCell (s : Store) (c : Cell) (other : CellId) :
    (s.newCell c).2.cell? other = if other.index = s.cells.size then some c else s.cell? other :=
  Array.getElem?_push

/-- A new cell is there. -/
theorem isSome_cell?_newCell (s : Store) (c : Cell) :
    ((s.newCell c).2.cell? (s.newCell c).1).isSome := by
  rw [cell?_newCell, if_pos (show (s.newCell c).1.index = s.cells.size from rfl)]
  rfl

/-- So is the cell of a fresh variable. -/
theorem isSome_cell?_declare (s : Store) (name : String) :
    ((s.declare name).2.cell? (s.declare name).1).isSome := by
  unfold declare
  split
  · exact isSome_cell?_newCell ..
  · exact isSome_cell?_newCell ..
  · exact isSome_cell?_newCell ..

/-- No cell goes away when another is put in the place of one. -/
theorem isSome_cell?_setCell (s : Store) (c : CellId) (cell : Cell) (other : CellId) :
    ((s.setCell c cell).cell? other).isSome = (s.cell? other).isSome := by
  rw [cell?_setCell]
  split
  · rw [Option.isSome_map]
  · rfl

/-- A cell that is there stays where it is when others are made. -/
theorem cell?_newCell_of_some (s : Store) (c : Cell) {other : CellId} {cell : Cell}
    (h : s.cell? other = some cell) : (s.newCell c).2.cell? other = some cell := by
  have hlt : other.index < s.cells.size := (Array.getElem?_eq_some_iff.mp h).1
  rw [cell?_newCell, if_neg (Nat.ne_of_lt hlt), h]

/-- A new variable is found under its name. -/
theorem find?_bindNew {s : Store} {scope : ScopeId} (known : scope.index < s.scopes.size)
    (name : String) (c : Cell) : (s.bindNew scope name c).find? scope name = some ⟨s.cells.size⟩ := by
  show Table.find? (((s.newCell c).2.bind scope name _).scope scope) name = _
  rw [scope_bind_self (s.newCell c).2 _ _ known, Table.find?_insert_self]

/-- Binding a name leaves the others as they are. -/
theorem find?_bind_of_ne {s : Store} {scope : ScopeId} (known : scope.index < s.scopes.size) {name other : String}
    (apart : other ≠ name) (c : CellId) : (s.bind scope other c).find? scope name = s.find? scope name := by
  rw [find?, scope_bind_self s other c known]
  exact Table.find?_insert_of_ne _ _ apart

/-- So does a new variable. -/
theorem find?_bindNew_of_ne {s : Store} {scope : ScopeId} (known : scope.index < s.scopes.size)
    {name other : String} (apart : other ≠ name) (cell : Cell) :
    (s.bindNew scope other cell).find? scope name = s.find? scope name :=
  find?_bind_of_ne (s := (s.newCell cell).2) known apart _

/-- It holds what it was made with. -/
theorem read_bindNew (s : Store) (scope : ScopeId) (name : String) (c : Cell) :
    (s.bindNew scope name c).read ⟨s.cells.size⟩ = c.value := by
  have here : (s.bindNew scope name c).cell? ⟨s.cells.size⟩ = some c := by
    show (s.newCell c).2.cell? ⟨s.cells.size⟩ = _
    rw [cell?_newCell, if_pos rfl]
  rw [read, here]

end Store

end ValueShell
