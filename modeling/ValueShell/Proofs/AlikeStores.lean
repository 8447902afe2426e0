/-
  Stores that are alike.

  Two stores are alike if what the one holds under a number is like what the other holds under the
  number that is matched with it, cells and scopes both.  Whatever is matched with nothing may be
  anything, and in the first store it is as it was (`Store.Alike.kept`, `Store.Alike.keptScopes`).

  Two runs of the same code make the same changes.  For each change of the store there is one lemma: made on
  both sides, it leaves them alike.
-/
import ValueShell.Proofs.Evolution
import ValueShell.Proofs.Likeness
import ValueShell.Proofs.SuffixedNames

namespace ValueShell

/-! ## Cells -/

/-- Two variables that are alike. -/
structure Cell.Alike (ρ : Matching) (c c' : Cell) : Prop where
  value : c.value.Alike ρ c'.value
  constraint : c.constraint = c'.constraint
  readOnly : c.readOnly = c'.readOnly

/-- A constraint does not look at numbers. -/
theorem Constraint.check_eq {ρ : Matching} (k : Constraint) {v v' : Value} (h : v.Alike ρ v') :
    k.check v = k.check v' := by
  cases k <;> cases h <;> rfl

namespace Cell.Alike

variable {ρ : Matching} {c c' : Cell} {v v' : Value} {path path' : List Value}

/-- Alike cells take an assignment both or not at all. -/
theorem assign (h : c.Alike ρ c') (hv : v.Alike ρ v') :
    Except.Alike (Cell.Alike ρ) (c.assign v) (c'.assign v') := by
  unfold Cell.assign
  rw [h.readOnly, h.constraint]
  split
  · exact .error _
  · split
    · next k _ =>
      rw [k.check_eq hv]
      refine (Except.Alike.refl _).map fun _ _ _ => ?_
      exact ⟨hv, rfl, rfl⟩
    · exact .ok ⟨hv, rfl, rfl⟩

/-- The same for an element, -/
theorem assignElement (h : c.Alike ρ c') (hpath : Values ρ path path') (hv : v.Alike ρ v') :
    Except.Alike (Cell.Alike ρ) (c.assignElement path v) (c'.assignElement path' v') :=
  (h.value.setPath hv hpath).bind fun _ _ whole => (h.assign whole).mapError _

/-- and for its removal. -/
theorem removeElement (h : c.Alike ρ c') (hpath : Values ρ path path') :
    Except.Alike (Cell.Alike ρ) (c.removeElement path) (c'.removeElement path') := by
  have empty : path.isEmpty = path'.isEmpty := by
    cases hpath <;> rfl
  unfold Cell.removeElement
  rw [empty]
  split
  · exact .ok h
  · exact (h.value.removePath hpath).bind fun _ _ whole => (h.assign whole).mapError _

/-- A new cell has the validator that its name asks for. -/
theorem forName (name : String) (hv : v.Alike ρ v') :
    (Cell.forName name v).Alike ρ (Cell.forName name v') := ⟨hv, rfl, rfl⟩

theorem plain (hv : v.Alike ρ v') : (Cell.plain v).Alike ρ (Cell.plain v') := ⟨hv, rfl, rfl⟩

/-- A coarser matching sees less. -/
theorem carry {σ : Matching} (carries : ρ.CarriesTo σ) (h : c.Alike ρ c') : c.Alike σ c' :=
  ⟨h.value.carry carries, h.constraint, h.readOnly⟩

end Cell.Alike

/-! ## Stores -/

/-- There is no cell at a number that has not been given. -/
theorem Store.cell?_eq_none {s : Store} {c : CellId} (h : s.cells.size ≤ c.index) :
    s.cell? c = none := Array.getElem?_eq_none h

/-- And no entry in such a scope. -/
theorem Store.scope_eq_nil {s : Store} {scope : ScopeId} (h : s.scopes.size ≤ scope.index) :
    s.scope scope = [] := by
  unfold Store.scope
  rw [Array.getD_eq_getD_getElem?, Array.getElem?_eq_none h]
  rfl

/-- **Two stores that are alike.** -/
structure Store.Alike (ρ : Matching) (s s' : Store) : Prop where
  cells : ∀ c c', ρ.Cell c c' → Option.Rel (Cell.Alike ρ) (s.cell? c) (s'.cell? c')
  scopes : ∀ t t', ρ.Visible t t' → Table.Alike ρ.Cell (s.scope t) (s'.scope t')
  cellsInStep : ρ.cells.InStep s.cells.size s'.cells.size
  scopesInStep : ρ.scopes.InStep s.scopes.size s'.scopes.size
  identitiesInStep : ρ.identities.InStep s.nextIdentity s'.nextIdentity
  fits : ρ.strict → s.Fits
  /-- what is matched with nothing is never written -/
  kept : ∀ c : CellId, (∀ c', ¬ρ.Cell c c') → s.cell? c = ρ.kept c.index
  keptScopes : ∀ t : ScopeId, (∀ j, ¬ρ.scopes.Rel t.index j) → s.scope t = ρ.keptScopes t.index

namespace Store.Alike

variable {ρ : Matching} {s s' : Store}

/-! ### What they hold -/

/-- What is read from matched cells is alike. -/
theorem read (h : s.Alike ρ s') {c c' : CellId} (hc : ρ.Cell c c') :
    (s.read c).Alike ρ (s'.read c') := by
  have found := h.cells c c' hc
  unfold Store.read
  cases hs : s.cell? c <;> cases hs' : s'.cell? c' <;> rw [hs, hs'] at found
  · exact .text ""
  · exact nomatch found
  · exact nomatch found
  · cases found with
    | some alike => exact alike.value

/-- A name leads to matched cells in visible scopes. -/
theorem find? (h : s.Alike ρ s') {t t' : ScopeId} (ht : ρ.Visible t t') (name : String) :
    Option.Rel ρ.Cell (s.find? t name) (s'.find? t' name) := (h.scopes t t' ht).find? name

/-- Visible scopes have the same names. -/
theorem names (h : s.Alike ρ s') {t t' : ScopeId} (ht : ρ.Visible t t') :
    s.names t = s'.names t' := (h.scopes t t' ht).names

/-! ### Changes -/

/-- A new cell on both sides is matched from the start. -/
theorem newCell (h : s.Alike ρ s') {c c' : Cell} (hc : c.Alike ρ c') :
    (s.newCell c).2.Alike ρ (s'.newCell c').2 where
  cells d d' hd := by
    rw [cell?_newCell, cell?_newCell]
    have here : d.index = s.cells.size ↔ d'.index = s'.cells.size := hd.unique h.cellsInStep.rel
    by_cases new : d.index = s.cells.size
    · rw [if_pos new, if_pos (here.mp new)]
      exact .some hc
    · rw [if_neg new, if_neg fun new' => new (here.mpr new')]
      exact h.cells d d' hd
  scopes := h.scopes
  cellsInStep := by
    show ρ.cells.InStep (s.cells.push c).size (s'.cells.push c').size
    rw [Array.size_push, Array.size_push]
    exact h.cellsInStep.succ
  scopesInStep := h.scopesInStep
  identitiesInStep := h.identitiesInStep
  fits strict := (h.fits strict).newCell c
  kept d alone := by
    have old : d.index ≠ s.cells.size := by
      intro new
      refine alone ⟨s'.cells.size⟩ ?_
      show ρ.cells.Rel d.index s'.cells.size
      rw [new]
      exact h.cellsInStep.rel
    rw [cell?_newCell, if_neg old]
    exact h.kept d alone
  keptScopes := h.keptScopes

/-- So is a new scope. -/
theorem newScope (h : s.Alike ρ s') {t t' : Table CellId} (ht : Table.Alike ρ.Cell t t')
    (honoured : ρ.strict → ∀ e ∈ t, s.Honours e.1 e.2) :
    (s.newScope t).2.Alike ρ (s'.newScope t').2 where
  cells := h.cells
  scopes u u' hu := by
    rw [scope_newScope, scope_newScope]
    have here : u.index = s.scopes.size ↔ u'.index = s'.scopes.size := by
      have fresh : ρ.Visible ⟨s.scopes.size⟩ ⟨s'.scopes.size⟩ := .inl h.scopesInStep.rel
      have numbers := hu.unique fresh
      constructor
      · intro new
        exact congrArg ScopeId.index (numbers.mp (ScopeId.eq_of_index new))
      · intro new
        exact congrArg ScopeId.index (numbers.mpr (ScopeId.eq_of_index new))
    by_cases new : u.index = s.scopes.size
    · rw [if_pos new, if_pos (here.mp new)]
      exact ht
    · rw [if_neg new, if_neg fun new' => new (here.mpr new')]
      exact h.scopes u u' hu
  cellsInStep := h.cellsInStep
  scopesInStep := by
    show ρ.scopes.InStep (s.scopes.push t).size (s'.scopes.push t').size
    rw [Array.size_push, Array.size_push]
    exact h.scopesInStep.succ
  identitiesInStep := h.identitiesInStep
  fits strict := (h.fits strict).newScope (honoured strict)
  kept := h.kept
  keptScopes u alone := by
    have old : u.index ≠ s.scopes.size := by
      intro new
      rw [new] at alone
      exact alone _ h.scopesInStep.rel
    rw [scope_newScope, if_neg old]
    exact h.keptScopes u alone

/-- So is a new identity. -/
theorem newIdentity (h : s.Alike ρ s') : s.newIdentity.2.Alike ρ s'.newIdentity.2 :=
  { h with identitiesInStep := h.identitiesInStep.succ }

/-- A change of the entries of a scope. -/
theorem modifyScope (h : s.Alike ρ s') {t t' : ScopeId} (ht : ρ.Scope t t')
    {change change' : Table CellId → Table CellId}
    (same : ∀ u u', Table.Alike ρ.Cell u u' → Table.Alike ρ.Cell (change u) (change' u'))
    (fits : ρ.strict → Store.Fits { s with scopes := s.scopes.modify t.index change }) :
    Store.Alike ρ { s with scopes := s.scopes.modify t.index change }
      { s' with scopes := s'.scopes.modify t'.index change' } where
  cells := h.cells
  scopes u u' hu := by
    rw [scope_modify, scope_modify]
    have here : t = u ↔ t' = u' := ht.visible.unique hu
    have known : t.index < s.scopes.size ↔ t'.index < s'.scopes.size := ht.1.lt_iff h.scopesInStep
    by_cases changed : t = u ∧ t.index < s.scopes.size
    · rw [if_pos changed, if_pos ⟨here.mp changed.1, known.mp changed.2⟩]
      exact same _ _ (h.scopes u u' hu)
    · rw [if_neg changed, if_neg fun both => changed ⟨here.mpr both.1, known.mpr both.2⟩]
      exact h.scopes u u' hu
  cellsInStep := h.cellsInStep
  scopesInStep := by
    show ρ.scopes.InStep (s.scopes.modify _ _).size (s'.scopes.modify _ _).size
    rw [Array.size_modify, Array.size_modify]
    exact h.scopesInStep
  identitiesInStep := h.identitiesInStep
  fits := fits
  kept := h.kept
  keptScopes u alone := by
    have other : t ≠ u := by
      rintro rfl
      exact alone t'.index ht.1
    rw [scope_modify, if_neg fun changed => other changed.1]
    exact h.keptScopes u alone

/-- A binding to matched cells. -/
theorem bind (h : s.Alike ρ s') {t t' : ScopeId} (ht : ρ.Scope t t') {name : String}
    {c c' : CellId} (hc : ρ.Cell c c') (honoured : ρ.strict → s.Honours name c) :
    (s.bind t name c).Alike ρ (s'.bind t' name c') :=
  h.modifyScope ht (fun _ _ same => same.insert name hc) fun strict =>
    (h.fits strict).bind t (honoured strict)

/-- And the end of one. -/
theorem unbind (h : s.Alike ρ s') {t t' : ScopeId} (ht : ρ.Scope t t') (name : String) :
    (s.unbind t name).Alike ρ (s'.unbind t' name) :=
  h.modifyScope ht (fun _ _ same => same.erase name) fun strict => (h.fits strict).unbind t name

/-- **A cell is changed**: on both sides, or on neither because there is none. -/
theorem setCell (h : s.Alike ρ s') {c c' : CellId} (hc : ρ.Cell c c') {cell cell' : Cell}
    (alike : cell.Alike ρ cell') (fits : ρ.strict → (s.setCell c cell).Fits) :
    (s.setCell c cell).Alike ρ (s'.setCell c' cell') where
  cells d d' hd := by
    rw [cell?_setCell, cell?_setCell]
    have here : c = d ↔ c' = d' := by
      have numbers : c.index = d.index ↔ c'.index = d'.index := hc.unique hd
      obtain ⟨i⟩ := c
      obtain ⟨j⟩ := d
      obtain ⟨i'⟩ := c'
      obtain ⟨j'⟩ := d'
      simpa using numbers
    by_cases same : c = d
    · rw [if_pos same, if_pos (here.mp same)]
      have found := h.cells d d' hd
      cases hs : s.cell? d <;> cases hs' : s'.cell? d' <;> rw [hs, hs'] at found
      · exact .none
      · exact nomatch found
      · exact nomatch found
      · exact .some alike
    · rw [if_neg same, if_neg fun same' => same (here.mpr same')]
      exact h.cells d d' hd
  scopes := h.scopes
  cellsInStep := by
    show ρ.cells.InStep (s.cells.setIfInBounds _ _).size (s'.cells.setIfInBounds _ _).size
    rw [Array.size_setIfInBounds, Array.size_setIfInBounds]
    exact h.cellsInStep
  scopesInStep := h.scopesInStep
  identitiesInStep := h.identitiesInStep
  fits := fits
  kept d alone := by
    have other : c ≠ d := by
      rintro rfl
      exact alone c' hc
    rw [cell?_setCell, if_neg other]
    exact h.kept d alone
  keptScopes := h.keptScopes

/-- A change of a cell that amounts to an assignment, if it changes anything. -/
theorem changeCell {ε : Type} (h : s.Alike ρ s') {c c' : CellId} (hc : ρ.Cell c c')
    {change change' : Cell → Except ε Cell}
    (same : ∀ cell cell', cell.Alike ρ cell' →
      Except.Alike (Cell.Alike ρ) (change cell) (change' cell'))
    (assigns : ∀ cell cell', change cell = .ok cell' →
      cell' = cell ∨ ∃ v, cell.assign v = .ok cell') :
    Except.Alike (Store.Alike ρ) (s.changeCell c change) (s'.changeCell c' change') := by
  unfold Store.changeCell
  have found := h.cells c c' hc
  cases hs : s.cell? c <;> cases hs' : s'.cell? c' <;> rw [hs, hs'] at found
  · exact .ok h
  · exact nomatch found
  · exact nomatch found
  · next cell cell' =>
    cases found with
    | some alike =>
      have changed := same cell cell' alike
      dsimp only
      cases hr : change cell <;> cases hr' : change' cell' <;> rw [hr, hr'] at changed
      · cases changed
        exact .error _
      · exact nomatch changed
      · exact nomatch changed
      · next new new' =>
        cases changed with
        | ok hnew =>
          refine .ok (h.setCell hc hnew fun strict => ?_)
          rcases assigns cell new hr with rfl | ⟨v, hv⟩
          · rw [Store.setCell_self hs]
            exact h.fits strict
          · exact (h.fits strict).assign hs hv

/-- A write is refused in both stores or in neither. -/
theorem write (h : s.Alike ρ s') {c c' : CellId} (hc : ρ.Cell c c') {v v' : Value}
    (hv : v.Alike ρ v') : Except.Alike (Store.Alike ρ) (s.write c v) (s'.write c' v') :=
  h.changeCell hc (fun _ _ hcell => hcell.assign hv) fun _ _ assigned => .inr ⟨v, assigned⟩

/-- An overlay of visible scopes. -/
theorem overlay (h : s.Alike ρ s') {t t' u u' : ScopeId} (ht : ρ.Visible t t')
    (hu : ρ.Visible u u') : (s.overlay t u).2.Alike ρ (s'.overlay t' u').2 := by
  refine h.newScope ((h.scopes t t' ht).overlay (h.scopes u u' hu)) fun strict e he => ?_
  rcases Table.mem_overlay he with he | he
  · exact h.fits strict t e he
  · exact h.fits strict u e he

/-- A new variable under a name. -/
theorem bindNew (h : s.Alike ρ s') {t t' : ScopeId} (ht : ρ.Scope t t') {name : String}
    {c c' : Cell} (hc : c.Alike ρ c')
    (honoured : ρ.strict → (s.newCell c).2.Honours name ⟨s.cells.size⟩) :
    (s.bindNew t name c).Alike ρ (s'.bindNew t' name c') :=
  (h.newCell hc).bind ht h.cellsInStep.rel honoured

/-- A fresh variable. -/
theorem declare (h : s.Alike ρ s') (name : String)
    (within : (s.declare name).2.scopes.size ≤ ρ.bound) :
    ρ.Cell (s.declare name).1 (s'.declare name).1 ∧
      (s.declare name).2.Alike ρ (s'.declare name).2 := by
  unfold Store.declare at within ⊢
  split
  · exact ⟨h.cellsInStep.rel, h.newCell (.forName name (.function (.builtin _)))⟩
  · next hk =>
    have grown : s.scopes.size < ρ.bound := by
      rw [hk] at within
      have : (s.scopes.push []).size ≤ ρ.bound := within
      rw [Array.size_push] at this
      omega
    have alike : (s.newScope []).2.Alike ρ (s'.newScope []).2 :=
      h.newScope .nil fun _ _ he => nomatch he
    refine ⟨h.cellsInStep.rel, alike.newCell (.forName name (.ns ⟨h.scopesInStep.rel, grown⟩))⟩
  · exact ⟨h.cellsInStep.rel, h.newCell (.forName name (.text ""))⟩

end Store.Alike

end ValueShell
