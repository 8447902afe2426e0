/-
  Removing an element.

  `del x[a][b]` takes the key `b` from the map that `x[a]` is, and nothing else.  The walk down and
  the way back up are those of an assignment, and that is the crux: to remove the key at the end of a
  path is to SET the container before it to that container without the key
  (`removePathFrom_append`).  What an assignment does to the other paths, and that it can go back up
  wherever it came down, then holds of a removal too.

  A walk may pass through a text, which no assignment can: its characters have indices.  But a
  character is a text again, so no such walk comes to a map, and nothing is removed at its end.
-/
import ValueShell.Proofs.ElementAssignment

namespace ValueShell

namespace Value

/-! ## One container -/

/-- Only maps lose keys. -/
theorem dissoc_ok {c key c' : Value} (h : c.dissoc key = .ok c') :
    ∃ entries k, c = .map entries ∧ key.toKey = .ok k ∧ c' = .map (Table.erase entries k) := by
  cases c with
  | map entries =>
    obtain ⟨k, denotes, h⟩ := Except.of_bind_ok h
    cases h
    exact ⟨entries, k, rfl, denotes, rfl⟩
  | _ => exact nomatch h

section Removed

variable {c c' key : Value}

/-- The removed key is no longer there. -/
theorem index_dissoc (h : c.dissoc key = .ok c') {k : String} (denotes : key.toKey = .ok k) :
    c'.index key = .error (.noSuchKey k) := by
  obtain ⟨entries, k', rfl, denotes', rfl⟩ := dissoc_ok h
  rw [denotes] at denotes'
  cases denotes'
  simp only [Value.index, denotes, bind, Except.bind, Table.find?_erase, if_pos]
  rfl

/-- Every other key holds what it held, and an index that is no key fails as it did. -/
theorem index_dissoc_of_ne (h : c.dissoc key = .ok c') {other : Value}
    (apart : c.slot? other ≠ c.slot? key) : c'.index other = c.index other := by
  obtain ⟨entries, k, rfl, denotes, rfl⟩ := dissoc_ok h
  rw [slot?, slot?, denotes] at apart
  cases there : other.toKey with
  | error e => simp only [Value.index, there, bind, Except.bind]
  | ok j =>
    rw [there] at apart
    have differ : k ≠ j := by
      rintro rfl
      exact apart rfl
    simp only [Value.index, there, bind, Except.bind, Table.find?_erase, if_neg differ]

/-- A map that does not have the key stays as it is. -/
theorem dissoc_of_absent (h : c.dissoc key = .ok c') {k : String}
    (absent : c.index key = .error (.noSuchKey k)) : c' = c := by
  obtain ⟨entries, k', rfl, denotes, rfl⟩ := dissoc_ok h
  cases found : Table.find? entries k' with
  | none => rw [Table.erase_of_find?_none found]
  | some v =>
    simp only [Value.index, denotes, bind, Except.bind, found] at absent
    cases absent

/-- Where an element is found in a list or a map, it can be replaced. -/
theorem assoc_of_index {index child : Value} (container : c.isContainer = true)
    (down : c.index index = .ok child) (new : Value) : ∃ c', c.assoc index new = .ok c' := by
  cases c with
  | list items =>
    obtain ⟨i, denotes, -⟩ := Except.of_bind_ok down
    exact ⟨.list (items.set i new), by simp only [assoc, denotes, bind, Except.bind]; rfl⟩
  | map entries =>
    obtain ⟨k, denotes, -⟩ := Except.of_bind_ok down
    exact ⟨.map (Table.insert entries k new), by simp only [assoc, denotes, bind, Except.bind]; rfl⟩
  | _ => cases container

/-- What is found in anything else is the character of a text. -/
theorem isContainer_index {index child : Value} (flat : c.isContainer = false)
    (down : c.index index = .ok child) : child.isContainer = false := by
  cases c with
  | list | map => exact nomatch flat
  | text s =>
    obtain ⟨i, -, down⟩ := Except.of_bind_ok down
    cases down
    rfl
  | _ => exact nomatch down

end Removed

/-! ## Paths -/

/-- One step of an assignment: down, replaced there, and up again. -/
theorem setPathFrom_cons {level : Nat} {v child index new : Value} (down : v.index index = .ok child)
    (path : List Value) :
    setPathFrom level v new (index :: path) = (do
      let child ← setPathFrom (level + 1) child new path
      blame level (v.assoc index child)) := by
  cases path with
  | nil => rfl
  | cons second rest => exact setPathFrom_down down

/-- One step of a removal that does not end here. -/
theorem removePathFrom_cons {level : Nat} {v index : Value} {path : List Value} (deep : path ≠ []) :
    removePathFrom level v (index :: path) = (do
      let child ← blame level (v.index index)
      let child ← removePathFrom (level + 1) child path
      blame level (v.assoc index child)) := by
  cases path with
  | nil => exact absurd rfl deep
  | cons second rest => rfl

/-- **Removing the key at the end of a path is setting the container before it to what that container
is without the key.** -/
theorem removePathFrom_append (key : Value) : ∀ (path : List Value) (level : Nat) (v : Value),
    removePathFrom level v (path ++ [key]) = (do
      let container ← getPathFrom level v path
      let removed ← blame (level + path.length) (container.dissoc key)
      setPathFrom level v removed path)
  | [], level, v => by
    show blame level (v.dissoc key) = (blame level (v.dissoc key)).bind .ok
    cases blame level (v.dissoc key) <;> rfl
  | index :: path, level, v => by
    have shift : level + (index :: path).length = level + 1 + path.length := by
      rw [List.length_cons]
      omega
    rw [List.cons_append, removePathFrom_cons (by simp), getPathFrom, shift]
    cases down : v.index index with
    | error e => rfl
    | ok child =>
      simp only [setPathFrom_cons down]
      show (do
        let child ← removePathFrom (level + 1) child (path ++ [key])
        blame level (v.assoc index child)) = _
      rw [removePathFrom_append key path (level + 1) child]
      simp only [bind_assoc]
      rfl

/-- No walk leads from a character to a list or a map. -/
theorem isContainer_getPathFrom : ∀ (path : List Value) {level : Nat} {v found : Value},
    getPathFrom level v path = .ok found → v.isContainer = false → found.isContainer = false
  | [], _, _, _, walk, flat => by
    cases walk
    exact flat
  | index :: path, _, v, found, walk, flat => by
    obtain ⟨child, down, walk⟩ := Except.of_bind_ok walk
    exact isContainer_getPathFrom path walk (isContainer_index flat (blame_ok down))

/-- The way back up from a list or a map cannot fail: where one is found, it can be replaced. -/
theorem setPathFrom_of_getPathFrom (new : Value) : ∀ (path : List Value) {level : Nat}
    {v container : Value}, getPathFrom level v path = .ok container → container.isContainer = true →
      ∃ whole, setPathFrom level v new path = .ok whole
  | [], _, _, _, _, _ => ⟨new, rfl⟩
  | index :: path, level, v, container, walk, ends => by
    have here : v.isContainer = true := by
      cases flat : v.isContainer with
      | true => rfl
      | false => exact (isContainer_getPathFrom _ walk flat).symm.trans ends
    obtain ⟨child, down, walk⟩ := Except.of_bind_ok walk
    have down := blame_ok down
    obtain ⟨child', inner⟩ := setPathFrom_of_getPathFrom new path walk ends
    obtain ⟨whole, up⟩ := assoc_of_index here down child'
    refine ⟨whole, ?_⟩
    rw [setPathFrom_cons down, inner]
    show blame level (v.assoc index child') = _
    rw [up]
    rfl

/-- Reading a path and then one more index. -/
theorem getPathFrom_append (key : Value) : ∀ (path : List Value) {level : Nat} {v container : Value},
    getPathFrom level v path = .ok container →
      getPathFrom level v (path ++ [key]) = blame (level + path.length) (container.index key)
  | [], level, v, container, walk => by
    cases walk
    show (blame level (v.index key)).bind .ok = _
    cases v.index key <;> rfl
  | index :: path, level, v, container, walk => by
    obtain ⟨child, down, walk⟩ := Except.of_bind_ok walk
    have shift : level + (index :: path).length = level + 1 + path.length := by
      rw [List.length_cons]
      omega
    rw [List.cons_append, getPathFrom, down, shift]
    exact getPathFrom_append key path walk

/-- What a removal that succeeds does: it finds a container, takes the key from it, and sets it. -/
theorem removePathFrom_ok {level : Nat} {v key whole : Value} {path : List Value}
    (h : removePathFrom level v (path ++ [key]) = .ok whole) :
    ∃ container removed, getPathFrom level v path = .ok container ∧
      container.dissoc key = .ok removed ∧ setPathFrom level v removed path = .ok whole := by
  rw [removePathFrom_append] at h
  obtain ⟨container, walk, h⟩ := Except.of_bind_ok h
  obtain ⟨removed, taken, rebuilt⟩ := Except.of_bind_ok h
  exact ⟨container, removed, walk, blame_ok taken, rebuilt⟩

section Rebuilt

variable {level : Nat} {v key whole container removed : Value} {path : List Value}

/-- **The removed key is not there**, and it is the last index that says so. -/
theorem getPathFrom_removed {k : String} (denotes : key.toKey = .ok k)
    (taken : container.dissoc key = .ok removed) (rebuilt : setPathFrom level v removed path = .ok whole) :
    getPathFrom level whole (path ++ [key]) =
      .error (.atLevel (level + path.length) (.noSuchKey k)) := by
  have found : getPathFrom level whole path = .ok removed := getPathFrom_setPathFrom path rebuilt
  rw [getPathFrom_append key path found, index_dissoc taken denotes]
  rfl

/-- **A path that leaves that of the removed key reads as before**, value or error. -/
theorem getPathFrom_removed_of_leaves (taken : container.dissoc key = .ok removed) :
    ∀ (path : List Value) {level : Nat} {v whole : Value} {q : List Value},
      getPathFrom level v path = .ok container → setPathFrom level v removed path = .ok whole →
        Leaves v (path ++ [key]) q → ∀ level', getPathFrom level' whole q = getPathFrom level' v q
  | [], level, v, whole, q, walk, rebuilt, leaves, level' => by
    cases walk
    cases rebuilt
    cases leaves with
    | apart differ =>
      rw [getPathFrom, getPathFrom, index_dissoc_of_ne taken differ]
    | deeper _ _ leaves => cases leaves
  | index :: path, level, v, whole, q, walk, rebuilt, leaves, level' => by
    obtain ⟨child, down, walk⟩ := Except.of_bind_ok walk
    have down := blame_ok down
    rw [setPathFrom_cons down] at rebuilt
    obtain ⟨child', inner, up⟩ := Except.of_bind_ok rebuilt
    have up := blame_ok up
    cases leaves with
    | apart differ =>
      rw [getPathFrom, getPathFrom, index_assoc_of_ne up differ]
    | deeper same down' leaves =>
      rw [down] at down'
      cases down'
      have before : v.index _ = .ok child := index_congr down (by
        cases replaced_of_assoc up <;> rfl) same
      have after : whole.index _ = .ok child' := index_assoc up same
      rw [getPathFrom, getPathFrom, before, after]
      exact getPathFrom_removed_of_leaves taken path walk inner leaves (level' + 1)

/-- **A key that was not there leaves the whole as it is.** -/
theorem removed_of_absent (proper : v.WellFormed) (walk : getPathFrom level v path = .ok container)
    (taken : container.dissoc key = .ok removed) (rebuilt : setPathFrom level v removed path = .ok whole)
    {k : String}
    (absent : getPathFrom level v (path ++ [key]) =
      .error (.atLevel (level + path.length) (.noSuchKey k))) : whole = v := by
  rw [getPathFrom_append key path walk] at absent
  have absent : container.index key = .error (.noSuchKey k) := by
    cases here : container.index key with
    | ok found =>
      rw [here] at absent
      exact nomatch absent
    | error fault =>
      rw [here] at absent
      cases absent
      rfl
  rw [dissoc_of_absent taken absent] at rebuilt
  exact setPathFrom_getPathFrom path proper walk rebuilt

end Rebuilt

end Value

/-! ## Variables -/

/-- A removal writes its variable, or fails and writes nothing. -/
theorem Eval.removal_run {w : World} {c : CellId} {cell : Cell} (held : w.store.cell? c = some cell)
    (path : List Value) :
    (Eval.tryCell c fun cell => cell.removeElement path) w =
      match cell.removeElement path with
      | .ok cell' => (.ok (.ok ()), { w with store := w.store.setCell c cell' })
      | .error e => (.ok (.error e), w) := by
  rw [Eval.tryCell_run, Store.changeCell, held]
  dsimp only
  cases cell.removeElement path <;> rfl

/-- Where the key can be taken from its container, it is the variable alone that may refuse. -/
theorem Cell.removeElement_append (cell : Cell) {path : List Value} {key container removed : Value}
    (walk : cell.value.getPath path = .ok container) (taken : container.dissoc key = .ok removed) :
    ∃ whole, cell.value.removePath (path ++ [key]) = .ok whole ∧
      cell.removeElement (path ++ [key]) = (cell.assign whole).mapError .whole := by
  have ends : container.isContainer = true := by
    obtain ⟨entries, -, rfl, -⟩ := Value.dissoc_ok taken
    rfl
  obtain ⟨whole, rebuilt⟩ := Value.setPathFrom_of_getPathFrom removed path walk ends
  have walk : Value.getPathFrom 1 cell.value path = .ok container := walk
  have all : cell.value.removePath (path ++ [key]) = .ok whole := by
    show Value.removePathFrom 1 cell.value (path ++ [key]) = _
    rw [Value.removePathFrom_append, walk]
    show (do
      let removed ← blame (1 + path.length) (container.dissoc key)
      Value.setPathFrom 1 cell.value removed path) = _
    rw [taken]
    exact rebuilt
  refine ⟨whole, all, ?_⟩
  rw [Cell.removeElement, if_neg (by simp), all]
  rfl

/-- **Removing an element removes one key.**  Take a variable and a path that ends in `key`.

If the removal succeeds, (1) reading the path fails at its last index, where there is no such key;
(2) every path that leaves it at some index reads what it read before, value or error; (3) the world
is the one of before if the key was not there.  A removal that fails changes nothing.

And wherever the walk and the taking of the key succeed, the whole is rebuilt, and how the removal
ends is how the variable takes that whole. -/
theorem Eval.removal_takes_one_key {w : World} {c : CellId} {cell : Cell}
    (held : w.store.cell? c = some cell) (proper : cell.value.WellFormed) (start : List Value)
    (key : Value) :
    let path := start ++ [key]
    let before := w.store.read c
    let (outcome, w') := (Eval.tryCell c fun cell => cell.removeElement path) w
    let after := w'.store.read c
    (outcome = .ok (.ok ()) →
      (∃ k, key.toKey = .ok k ∧
        after.getPath path = .error (.atLevel path.length (.noSuchKey k))) ∧
      (∀ q, before.Leaves path q → after.getPath q = before.getPath q) ∧
      (∀ k, before.getPath path = .error (.atLevel path.length (.noSuchKey k)) → w' = w)) ∧
    (outcome ≠ .ok (.ok ()) → w' = w) ∧
    (∀ container removed, before.getPath start = .ok container →
      container.dissoc key = .ok removed →
        ∃ whole, before.removePath path = .ok whole ∧
          outcome = .ok (((cell.assign whole).mapError .whole).map fun _ => ())) := by
  intro path before
  have now : before = cell.value := by
    show w.store.read c = _
    rw [Store.read, held]
  have last : path.length = 1 + start.length := by
    rw [List.length_append, List.length_singleton, Nat.add_comm]
  rw [removal_run held, now, last]
  cases run : cell.removeElement path with
  | error e =>
    refine ⟨fun done => ?_, fun _ => rfl, fun container removed walk taken => ?_⟩
    · cases done
    · obtain ⟨whole, all, refused⟩ := cell.removeElement_append walk taken
      refine ⟨whole, all, ?_⟩
      rw [← refused, run]
      rfl
  | ok cell' =>
    refine ⟨fun _ => ?_, fun failed => absurd rfl failed, fun container removed walk taken => ?_⟩
    · obtain ⟨empty, -⟩ | ⟨whole, all, assigned⟩ := Cell.removeElement_eq_ok run
      · exact absurd empty (by simp [path])
      · have same := Cell.assign_eq assigned
        obtain ⟨container, removed, walk, taken, rebuilt⟩ := Value.removePathFrom_ok all
        obtain ⟨entries, k, -, denotes, -⟩ := Value.dissoc_ok taken
        have after : (w.store.setCell c cell').read c = whole := by
          rw [Store.read_setCell held, same]
        dsimp only
        rw [after]
        refine ⟨⟨k, denotes, Value.getPathFrom_removed denotes taken rebuilt⟩,
          fun q leaves => Value.getPathFrom_removed_of_leaves taken start walk rebuilt leaves 1,
          fun k' absent => ?_⟩
        have unchanged : whole = cell.value :=
          Value.removed_of_absent proper walk taken rebuilt absent
        rw [same, unchanged, Store.setCell_self held]
    · obtain ⟨whole, all, taken⟩ := cell.removeElement_append walk taken
      refine ⟨whole, all, ?_⟩
      rw [← taken, run]
      rfl

/-- The key `1` goes from the map that is the second item of a list: its neighbours read as before,
under every name, and the removal of a key that is not there changes nothing. -/
theorem Eval.removal_takes_one_key_nested :
    let c : CellId := ⟨0⟩
    let entries : List (String × Value) := [("1", .text "a"), ("k", .text "b")]
    let whole : Value := .list [.text "c", .map entries]
    let w : World := { World.start default default with store := ⟨#[.plain whole], #[], 0⟩ }
    let start : List Value := [.text "-1"]
    let (outcome, w') := (Eval.tryCell c fun cell => cell.removeElement (start ++ [.text "1"])) w
    whole.WellFormed ∧ outcome = .ok (.ok ()) ∧
      (w'.store.read c).getPath [.text "-1", .text "1"] = .error (.atLevel 2 (.noSuchKey "1")) ∧
      (w'.store.read c).getPath [.text "1", .text "k"] = .ok (.text "b") ∧
      (w'.store.read c).getPath [.text "0"] = .ok (.text "c") ∧
      ((Eval.tryCell c fun cell => cell.removeElement (start ++ [.text "z"])) w).2 = w := by
  intro c entries whole w start
  have ordered : "1" < "k" := by decide +kernel
  have proper : whole.WellFormed :=
    ⟨trivial, ⟨List.pairwise_pair.mpr ordered, ⟨trivial, trivial, trivial⟩⟩, trivial⟩
  have held : w.store.cell? c = some (.plain whole) := rfl
  obtain ⟨⟨k, denotes, gone⟩, kept, -⟩ :=
    (removal_takes_one_key held proper start (.text "1")).1 rfl
  cases denotes
  have neighbour : whole.Leaves (start ++ [.text "1"]) [.text "1", .text "k"] :=
    .deeper rfl rfl (.apart (by decide +kernel))
  have first : whole.Leaves (start ++ [.text "1"]) [.text "0"] := .apart (by decide +kernel)
  have absent := (removal_takes_one_key held proper start (.text "z")).1 rfl
  exact ⟨proper, rfl, gone, kept _ neighbour, kept _ first, absent.2.2 "z" rfl⟩

end ValueShell
