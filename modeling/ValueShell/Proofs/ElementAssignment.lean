/-
  Assigning to an element is a lens.

  `x[a][b] = v` rebuilds every container on the path `[a][b]` and puts the whole back into the
  variable.  Lists and maps may alternate on the path, and one element has many names: `-1` and `3` of
  a list of four, the number `1` and the text `1` of a map.  So the laws are not about indices but
  about the SLOT an index denotes in a container, `Value.slot?`, or its denoting none.

  There are four laws of one container (`index_assoc`, `index_assoc_of_ne`, `assoc_assoc`,
  `assoc_index`).  Each is carried down a path by induction, and from there to the variable, which may
  refuse the rebuilt whole.
-/
import ValueShell.Eval.Assignment
import ValueShell.Proofs.Carried
import ValueShell.Proofs.Evaluation
import ValueShell.Proofs.Growth

namespace ValueShell

/-- A place in a container: a position of a list, or a key of a map. -/
inductive Slot
  | position (i : Nat)
  | key (name : String)
deriving DecidableEq, Repr

namespace Value

/-! ## One container -/

/-- The slot that an index denotes in a container.  It need not hold anything: a map has a slot for
every key. -/
def slot? (container index : Value) : Option Slot :=
  match container with
  | list items => (index.toPosition items.length).toOption.map .position
  | map _ => index.toKey.toOption.map .key
  | _ => none

theorem toPosition_lt {index : Value} {length i : Nat} (h : index.toPosition length = .ok i) :
    i < length := by
  obtain ⟨n, -, h⟩ := Except.of_bind_ok h
  simp only [pure] at h
  by_cases bounds : 0 ≤ (if n < 0 then n + length else n) ∧ (if n < 0 then n + length else n) < length
  · rw [if_pos bounds] at h
    cases h
    omega
  · rw [if_neg bounds] at h
    exact nomatch h

/-- What replacing an element does: the container is a list or a map, the index denotes a slot of it,
and that slot gets the new value. -/
inductive Replaced (index new : Value) : Value → Value → Prop
  | list {items : List Value} {i : Nat} (denotes : index.toPosition items.length = .ok i) :
      Replaced index new (.list items) (.list (items.set i new))
  | map {entries : List (String × Value)} {k : String} (denotes : index.toKey = .ok k) :
      Replaced index new (.map entries) (.map (Table.insert entries k new))

theorem replaced_of_assoc {c index new c' : Value} (h : c.assoc index new = .ok c') :
    Replaced index new c c' := by
  cases c with
  | list items =>
    obtain ⟨i, denotes, h⟩ := Except.of_bind_ok h
    cases h
    exact .list denotes
  | map entries =>
    obtain ⟨k, denotes, h⟩ := Except.of_bind_ok h
    cases h
    exact .map denotes
  | _ => exact nomatch h

section Replaced

variable {c c' index new : Value}

/-- The slots are those of before. -/
theorem slot?_assoc (h : c.assoc index new = .ok c') (other : Value) :
    c'.slot? other = c.slot? other := by
  cases replaced_of_assoc h with
  | list _ => rw [slot?, slot?, List.length_set]
  | map _ => rfl

/-- The replaced element is the new value, by whichever index it is asked for. -/
theorem index_assoc (h : c.assoc index new = .ok c') {other : Value}
    (same : c.slot? other = c.slot? index) : c'.index other = .ok new := by
  cases replaced_of_assoc h with
  | @list items i denotes =>
    have inside : i < items.length := toPosition_lt denotes
    rw [slot?, slot?, denotes] at same
    cases there : other.toPosition items.length with
    | error e =>
      rw [there] at same
      cases same
    | ok j =>
      rw [there] at same
      cases same
      simp only [Value.index, List.length_set, there, bind, Except.bind, pure, Except.pure]
      simp [inside]
  | @map entries k denotes =>
    rw [slot?, slot?, denotes] at same
    cases there : other.toKey with
    | error e =>
      rw [there] at same
      cases same
    | ok j =>
      rw [there] at same
      cases same
      simp only [Value.index, there, bind, Except.bind, Table.find?_insert_self]
      rfl

/-- Every other slot holds what it held, and an index that denotes none fails as it did. -/
theorem index_assoc_of_ne (h : c.assoc index new = .ok c') {other : Value}
    (apart : c.slot? other ≠ c.slot? index) : c'.index other = c.index other := by
  cases replaced_of_assoc h with
  | @list items i denotes =>
    rw [slot?, slot?, denotes] at apart
    cases there : other.toPosition items.length with
    | error e => simp only [Value.index, List.length_set, there, bind, Except.bind]
    | ok j =>
      rw [there] at apart
      have differ : i ≠ j := by
        rintro rfl
        exact apart rfl
      simp only [Value.index, List.length_set, there, bind, Except.bind, pure, Except.pure]
      simp [List.getElem?_set_ne differ]
  | @map entries k denotes =>
    rw [slot?, slot?, denotes] at apart
    cases there : other.toKey with
    | error e => simp only [Value.index, there, bind, Except.bind]
    | ok j =>
      rw [there] at apart
      have differ : k ≠ j := by
        rintro rfl
        exact apart rfl
      simp only [Value.index, there, bind, Except.bind, Table.find?_insert_of_ne _ _ differ]

/-- Of two replacements of one element, the second stays. -/
theorem assoc_assoc (h : c.assoc index new = .ok c') (other : Value) :
    c'.assoc index other = c.assoc index other := by
  cases replaced_of_assoc h with
  | list denotes =>
    simp only [assoc, List.length_set, denotes, bind, Except.bind, List.set_set]
  | map denotes =>
    simp only [assoc, denotes, bind, Except.bind, Table.insert_insert]

/-- Whether an element can be replaced does not depend on the new value. -/
theorem assoc_of_assoc (h : c.assoc index new = .ok c') (other : Value) :
    ∃ c'', c.assoc index other = .ok c'' := by
  cases replaced_of_assoc h with
  | list denotes =>
    simp only [assoc, denotes, bind, Except.bind]
    exact ⟨_, rfl⟩
  | map denotes =>
    simp only [assoc, denotes, bind, Except.bind]
    exact ⟨_, rfl⟩

/-- An element replaced by itself leaves the container as it is. -/
theorem assoc_index (proper : c.WellFormed) (held : c.index index = .ok new)
    (h : c.assoc index new = .ok c') : c' = c := by
  cases replaced_of_assoc h with
  | @list items i denotes =>
    have inside : i < items.length := toPosition_lt denotes
    obtain ⟨j, there, held⟩ := Except.of_bind_ok held
    rw [denotes] at there
    cases there
    cases held
    simp [inside]
  | @map entries k denotes =>
    obtain ⟨j, there, held⟩ := Except.of_bind_ok held
    rw [denotes] at there
    cases there
    cases found : Table.find? entries k with
    | none =>
      rw [found] at held
      exact nomatch held
    | some v =>
      rw [found] at held
      cases held
      rw [proper.1.insert_of_find? found]

end Replaced

/-- Two indices of one slot find the same. -/
theorem index_congr {c index other found : Value} (held : c.index index = .ok found)
    (replaceable : c.isContainer = true) (same : c.slot? other = c.slot? index) :
    c.index other = .ok found := by
  cases c with
  | list items =>
    obtain ⟨i, denotes, held⟩ := Except.of_bind_ok held
    rw [slot?, slot?, denotes] at same
    cases there : other.toPosition items.length with
    | error e =>
      rw [there] at same
      cases same
    | ok j =>
      rw [there] at same
      cases same
      simp only [Value.index, there]
      exact held
  | map entries =>
    obtain ⟨k, denotes, held⟩ := Except.of_bind_ok held
    rw [slot?, slot?, denotes] at same
    cases there : other.toKey with
    | error e =>
      rw [there] at same
      cases same
    | ok j =>
      rw [there] at same
      cases same
      simp only [Value.index, there]
      exact held
  | _ => exact absurd replaceable Bool.false_ne_true

/-! ## Paths -/

/-- **The path `q` leaves the path `p` at one of its indices**: up to there both denote the same slots
on the way down from `v`, and there `q` denotes another slot or none. -/
inductive Leaves : Value → List Value → List Value → Prop
  | apart {v index other : Value} {p q : List Value} (differ : v.slot? other ≠ v.slot? index) :
      Leaves v (index :: p) (other :: q)
  | deeper {v child index other : Value} {p q : List Value} (same : v.slot? other = v.slot? index)
      (down : v.index index = .ok child) (leaves : Leaves child p q) :
      Leaves v (index :: p) (other :: q)

theorem WellFormedItems.item : ∀ {items : List Value}, WellFormedItems items →
    ∀ v ∈ items, v.WellFormed
  | [], _ => nofun
  | _ :: _, proper => List.forall_mem_cons.mpr ⟨proper.1, item proper.2⟩

theorem WellFormedEntries.entry : ∀ {entries : List (String × Value)}, WellFormedEntries entries →
    ∀ e ∈ entries, e.2.WellFormed
  | [], _ => nofun
  | _ :: _, proper => List.forall_mem_cons.mpr ⟨proper.1, entry proper.2⟩

/-- What is found in a well-formed value is well-formed. -/
theorem WellFormed.index {c index found : Value} (proper : c.WellFormed)
    (held : c.index index = .ok found) : found.WellFormed := by
  cases c with
  | list items =>
    obtain ⟨i, denotes, held⟩ := Except.of_bind_ok held
    cases held
    have inside : i < items.length := toPosition_lt denotes
    rw [List.getD_eq_getElem?_getD, List.getElem?_eq_getElem inside]
    exact WellFormedItems.item proper _ (List.getElem_mem inside)
  | map entries =>
    obtain ⟨k, -, held⟩ := Except.of_bind_ok held
    cases found : Table.find? entries k with
    | none =>
      rw [found] at held
      exact nomatch held
    | some v =>
      rw [found] at held
      cases held
      exact proper.2.entry _ (Table.mem_of_find? found)
  | text s =>
    obtain ⟨i, -, held⟩ := Except.of_bind_ok held
    cases held
    trivial
  | _ => exact nomatch held

/-- A replacement below the first index goes down, replaces there and comes back up. -/
theorem setPathFrom_down {level : Nat} {v child index second new : Value} {rest : List Value}
    (down : v.index index = .ok child) :
    setPathFrom level v new (index :: second :: rest) = (do
      let child ← setPathFrom (level + 1) child new (second :: rest)
      blame level (v.assoc index child)) := by
  show (do
    let child ← blame level (v.index index)
    let child ← setPathFrom (level + 1) child new (second :: rest)
    blame level (v.assoc index child)) = _
  rw [down]
  rfl

/-- **The element reads as what it was set to.** -/
theorem getPathFrom_setPathFrom {new : Value} : ∀ (path : List Value) {level : Nat} {v whole : Value},
    setPathFrom level v new path = .ok whole → getPathFrom level whole path = .ok new
  | [], _, _, _, h => by
    cases h
    rfl
  | [index], level, v, whole, h => by
    have found : whole.index index = .ok new := index_assoc (blame_ok h) rfl
    rw [getPathFrom, found]
    rfl
  | index :: second :: rest, level, v, whole, h => by
    obtain ⟨child, child', -, inner, up⟩ := down_ok h
    have found : whole.index index = .ok child' := index_assoc up rfl
    rw [getPathFrom, found]
    exact getPathFrom_setPathFrom (second :: rest) inner

/-- **A path that leaves that of the element reads as before**, value or error. -/
theorem getPathFrom_setPathFrom_of_leaves {v : Value} {p q : List Value} (leaves : Leaves v p q) :
    ∀ {level : Nat} {new whole : Value}, setPathFrom level v new p = .ok whole →
      ∀ level', getPathFrom level' whole q = getPathFrom level' v q := by
  induction leaves with
  | @apart v index other p q differ =>
    intro level new whole h level'
    have kept : whole.index other = v.index other := by
      cases p with
      | nil => exact index_assoc_of_ne (blame_ok h) differ
      | cons second rest =>
        obtain ⟨child, child', -, -, up⟩ := down_ok h
        exact index_assoc_of_ne up differ
    rw [getPathFrom, getPathFrom, kept]
  | @deeper v child index other p q same down leaves ih =>
    intro level new whole h level'
    cases p with
    | nil => exact nomatch leaves
    | cons second rest =>
      obtain ⟨found, child', down', inner, up⟩ := down_ok h
      rw [down] at down'
      cases down'
      have before : v.index other = .ok child := index_congr down (by
        cases replaced_of_assoc up <;> rfl) same
      have after : whole.index other = .ok child' := index_assoc up same
      rw [getPathFrom, getPathFrom, before, after]
      exact ih inner (level' + 1)

/-- **Of two replacements at one path, the second stays**, and it fails where it would have failed. -/
theorem setPathFrom_setPathFrom {new other : Value} : ∀ (path : List Value) {level : Nat}
    {v whole : Value}, setPathFrom level v new path = .ok whole →
      setPathFrom level whole other path = setPathFrom level v other path
  | [], _, _, _, _ => rfl
  | [index], level, v, whole, h => by
    rw [setPathFrom, setPathFrom, assoc_assoc (blame_ok h)]
  | index :: second :: rest, level, v, whole, h => by
    obtain ⟨child, child', down, inner, up⟩ := down_ok h
    have found : whole.index index = .ok child' := index_assoc up rfl
    rw [setPathFrom_down found, setPathFrom_down down, setPathFrom_setPathFrom (second :: rest) inner]
    exact congrArg _ (funext fun child => by rw [assoc_assoc up])

/-- Whether the element at a path can be replaced does not depend on the new value. -/
theorem setPathFrom_of_setPathFrom {new : Value} (other : Value) : ∀ (path : List Value)
    {level : Nat} {v whole : Value}, setPathFrom level v new path = .ok whole →
      ∃ whole', setPathFrom level v other path = .ok whole'
  | [], _, _, _, _ => ⟨other, rfl⟩
  | [index], level, v, whole, h => by
    obtain ⟨whole', up⟩ := assoc_of_assoc (blame_ok h) other
    exact ⟨whole', by rw [setPathFrom, up]; rfl⟩
  | index :: second :: rest, level, v, whole, h => by
    obtain ⟨child, child', down, inner, up⟩ := down_ok h
    obtain ⟨child'', inner'⟩ := setPathFrom_of_setPathFrom other (second :: rest) inner
    obtain ⟨whole', up'⟩ := assoc_of_assoc up child''
    refine ⟨whole', ?_⟩
    rw [setPathFrom_down down, inner']
    show blame level (v.assoc index child'') = _
    rw [up']
    rfl

/-- What is rebuilt below an index is a list or a map. -/
theorem isContainer_setPathFrom {level : Nat} {v new whole : Value} {path : List Value}
    (deep : path ≠ []) (h : setPathFrom level v new path = .ok whole) : whole.isContainer = true := by
  match path, deep with
  | [index], _ => cases replaced_of_assoc (blame_ok h) <;> rfl
  | index :: second :: rest, _ =>
    obtain ⟨child, child', -, -, up⟩ := down_ok h
    cases replaced_of_assoc up <;> rfl

/-- **An element set to what it is leaves the whole as it is.** -/
theorem setPathFrom_getPathFrom {held : Value} : ∀ (path : List Value) {level : Nat}
    {v whole : Value}, v.WellFormed → getPathFrom level v path = .ok held →
      setPathFrom level v held path = .ok whole → whole = v
  | [], _, _, _, _, read, h => by
    cases read
    cases h
    rfl
  | [index], level, v, whole, proper, read, h => by
    obtain ⟨child, down, read⟩ := Except.of_bind_ok read
    cases read
    exact assoc_index proper (blame_ok down) (blame_ok h)
  | index :: second :: rest, level, v, whole, proper, read, h => by
    obtain ⟨child, down, read⟩ := Except.of_bind_ok read
    obtain ⟨found, child', down', inner, up⟩ := down_ok h
    rw [blame_ok down] at down'
    cases down'
    have same : child' = child :=
      setPathFrom_getPathFrom (second :: rest) (proper.index (blame_ok down)) read inner
    rw [same] at up
    exact assoc_index proper (blame_ok down) up

end Value

/-! ## Variables -/

/-- Of two cells put under one name, the second stays. -/
theorem Store.setCell_setCell (s : Store) (c : CellId) (cell other : Cell) :
    (s.setCell c cell).setCell c other = s.setCell c other := by
  simp [Store.setCell]

theorem Store.read_setCell {s : Store} {c : CellId} {cell : Cell} (held : s.cell? c = some cell)
    (other : Cell) : (s.setCell c other).read c = other.value := by
  simp [Store.read, Store.cell?_setCell, held]

/-- Lists and maps satisfy no constraint. -/
theorem Constraint.check_container (constraint : Constraint) {v : Value}
    (container : v.isContainer = true) : ∃ e, constraint.check v = .error e := by
  cases v with
  | list | map => cases constraint <;> exact ⟨_, rfl⟩
  | _ => exact nomatch container

namespace Cell

variable {cell cell' : Cell} {path : List Value} {v whole : Value}

/-- A variable that takes a list or a map takes every value. -/
theorem assign_of_container (container : whole.isContainer = true)
    (h : cell.assign whole = .ok cell') (other : Value) :
    cell.assign other = .ok { cell with value := other } := by
  unfold Cell.assign at h ⊢
  by_cases closed : cell.readOnly = true
  · rw [if_pos closed] at h
    exact nomatch h
  · rw [if_neg closed] at h ⊢
    cases constrained : cell.constraint with
    | none => rfl
    | some constraint =>
      obtain ⟨e, refused⟩ := constraint.check_container container
      rw [constrained] at h
      dsimp only at h
      rw [refused] at h
      exact nomatch h

/-- An element is replaced if the whole can be rebuilt and the variable takes it. -/
theorem assignElement_of_setPath (rebuilt : cell.value.setPath path v = .ok whole) :
    cell.assignElement path v = (cell.assign whole).mapError .whole := by
  rw [assignElement, rebuilt]
  rfl

theorem assignElement_ok (h : cell.assignElement path v = .ok cell') :
    ∃ whole, cell.value.setPath path v = .ok whole ∧ cell.assign whole = .ok cell' ∧
      cell' = { cell with value := whole } := by
  obtain ⟨whole, rebuilt, taken⟩ := assignElement_eq_ok h
  exact ⟨whole, rebuilt, taken, assign_eq taken⟩

/-- Below an index, whether an element can be assigned does not depend on the value. -/
theorem assignElement_of_assignElement (deep : path ≠ []) (h : cell.assignElement path v = .ok cell')
    (other : Value) : ∃ cell'', cell.assignElement path other = .ok cell'' := by
  obtain ⟨whole, rebuilt, taken, -⟩ := assignElement_ok h
  obtain ⟨whole', rebuilt'⟩ := Value.setPathFrom_of_setPathFrom other path rebuilt
  refine ⟨{ cell with value := whole' }, ?_⟩
  rw [assignElement_of_setPath rebuilt',
    assign_of_container (Value.isContainer_setPathFrom deep rebuilt) taken]
  rfl

/-- Of two assignments to one element, the second stays. -/
theorem assignElement_assignElement (h : cell.assignElement path v = .ok cell') (other : Value) :
    cell'.assignElement path other = cell.assignElement path other := by
  obtain ⟨whole, rebuilt, -, rfl⟩ := assignElement_ok h
  have same : whole.setPath path other = cell.value.setPath path other :=
    Value.setPathFrom_setPathFrom path rebuilt
  unfold assignElement
  rw [same]
  rfl

end Cell

/-- An assignment to an element writes its variable, or fails and writes nothing. -/
theorem Destination.write_element {w : World} {c : CellId} {cell : Cell}
    (held : w.store.cell? c = some cell) (path : List Value) (v : Value) :
    (Destination.element c path).write v w =
      match cell.assignElement path v with
      | .ok cell' => (.ok (.ok ()), { w with store := w.store.setCell c cell' })
      | .error e => (.ok (.error e), w) := by
  rw [Destination.write, Eval.tryCell_run, Store.changeCell, held]
  dsimp only
  cases cell.assignElement path v <;> rfl

theorem Destination.write_element_ok {w w' : World} {c : CellId} {cell : Cell}
    (held : w.store.cell? c = some cell) {path : List Value} {v : Value}
    (h : (Destination.element c path).write v w = (.ok (.ok ()), w')) :
    ∃ cell', cell.assignElement path v = .ok cell' ∧
      w' = { w with store := w.store.setCell c cell' } := by
  rw [write_element held] at h
  cases assigned : cell.assignElement path v with
  | ok cell' =>
    rw [assigned] at h
    cases h
    exact ⟨cell', rfl, rfl⟩
  | error e =>
    rw [assigned] at h
    exact nomatch h

/-- **Assigning to an element is a lens.**  Take a variable that holds a proper value, and any path.

Whenever an assignment of some `v` at the path succeeds, (1) the element reads as `v`; (2) every path
that leaves it at some index reads what it read before, value or error; (3) an assignment of another
value then has the result and leaves the world that it would have had without the first, if it
succeeds without the first, which below an index every value does.

(4) An assignment of the value that the element has changes nothing, and neither does an assignment
that fails. -/
theorem Destination.element_lens {w : World} {c : CellId} {cell : Cell}
    (held : w.store.cell? c = some cell) (proper : cell.value.WellFormed) (path : List Value) :
    (∀ v w', (Destination.element c path).write v w = (.ok (.ok ()), w') →
      (w'.store.read c).getPath path = .ok v ∧
      (∀ q, (w.store.read c).Leaves path q →
        (w'.store.read c).getPath q = (w.store.read c).getPath q) ∧
      (∀ u w'', (Destination.element c path).write u w = (.ok (.ok ()), w'') →
        (Destination.element c path).write u w' = (.ok (.ok ()), w'')) ∧
      (path ≠ [] → ∀ u, ((Destination.element c path).write u w).1 = .ok (.ok ()))) ∧
    (∀ v, (w.store.read c).getPath path = .ok v → ((Destination.element c path).write v w).2 = w) ∧
    (∀ v, ((Destination.element c path).write v w).1 ≠ .ok (.ok ()) →
      ((Destination.element c path).write v w).2 = w) := by
  have before : w.store.read c = cell.value := by rw [Store.read, held]
  rw [before]
  refine ⟨fun v w' h => ?_, fun v current => ?_, fun v failed => ?_⟩
  · obtain ⟨cell', assigned, rfl⟩ := write_element_ok held h
    obtain ⟨whole, rebuilt, -, same⟩ := Cell.assignElement_ok assigned
    have after : (w.store.setCell c cell').read c = whole := by rw [Store.read_setCell held, same]
    have held' : (w.store.setCell c cell').cell? c = some cell' := by
      rw [Store.cell?_setCell, if_pos rfl, held]
      rfl
    dsimp only
    rw [after]
    refine ⟨Value.getPathFrom_setPathFrom path rebuilt,
      fun q leaves => Value.getPathFrom_setPathFrom_of_leaves leaves rebuilt 1,
      fun u w'' hu => ?_, fun deep u => ?_⟩
    · obtain ⟨cell'', assigned', rfl⟩ := write_element_ok held hu
      rw [write_element held', Cell.assignElement_assignElement assigned, assigned']
      dsimp only
      rw [Store.setCell_setCell]
    · obtain ⟨cell'', assigned'⟩ := Cell.assignElement_of_assignElement deep assigned u
      rw [write_element held, assigned']
  · rw [write_element held]
    cases assigned : cell.assignElement path v with
    | error e => rfl
    | ok cell' =>
      obtain ⟨whole, rebuilt, -, rfl⟩ := Cell.assignElement_ok assigned
      have same : whole = cell.value := Value.setPathFrom_getPathFrom path proper current rebuilt
      rw [same]
      dsimp only
      rw [Store.setCell_self held]
  · rw [write_element held] at failed ⊢
    cases assigned : cell.assignElement path v with
    | error e => rfl
    | ok cell' =>
      rw [assigned] at failed
      exact absurd rfl failed

/-- The last item of a list in a map, by the index `-1`: it reads as assigned, its neighbour at the
index `0` and the other entry of the map as before. -/
theorem Destination.element_lens_last_item :
    let c : CellId := ⟨0⟩
    let whole : Value := .map [("k", .list [.text "a", .text "b"]), ("m", .text "c")]
    let w : World := { World.start default default with store := ⟨#[.plain whole], #[], 0⟩ }
    let path : List Value := [.text "k", .text "-1"]
    let written := (Destination.element c path).write (.text "new") w
    whole.WellFormed ∧ written.1 = .ok (.ok ()) ∧
      (written.2.store.read c).getPath path = .ok (.text "new") ∧
      (written.2.store.read c).getPath [.text "k", .text " 0"] = .ok (.text "a") ∧
      (written.2.store.read c).getPath [.text "m"] = .ok (.text "c") := by
  intro c whole w path written
  have ordered : "k" < "m" := by decide +kernel
  have proper : whole.WellFormed :=
    ⟨List.pairwise_pair.mpr ordered, ⟨trivial, trivial, trivial⟩, trivial, trivial⟩
  have assigned : written.1 = .ok (.ok ()) := rfl
  have held : w.store.cell? c = some (.plain whole) := rfl
  have laws := (element_lens held proper path).1 (.text "new") written.2 rfl
  have neighbour : whole.Leaves path [.text "k", .text " 0"] :=
    .deeper rfl rfl (.apart (by decide +kernel))
  have entry : whole.Leaves path [.text "m"] := .apart (by decide +kernel)
  exact ⟨proper, assigned, laws.1, laws.2.1 _ neighbour, laws.2.1 _ entry⟩

end ValueShell
