/-
  Names with a suffix.

  A name that ends in `~` or `:` says what its variable may hold.  Nothing in a scope enforces that: what
  does is the constraint of the cell, which comes with the cell when it is made for the name, and refuses every
  other value.  `Store.Honours` is what a name promises of the cell it is bound to, and `Store.Fits` says that
  all names in all scopes keep their promises.  Making cells and assigning to them keeps it so.
-/
import ValueShell.Store

namespace ValueShell

/-- What a name promises is said by its last character. -/
theorem Constraint.forName?_append (name : String) (c : Char) :
    Constraint.forName? (name ++ String.singleton c) =
      match c with
      | '~' => some .callable
      | ':' => some .namespaced
      | _ => none := by
  unfold Constraint.forName?
  rw [String.toList_append, String.toList_singleton, List.getLast?_concat]
  split <;> split <;> grind

/-- A name with the suffix of functions. -/
theorem Constraint.forName?_function (name : String) :
    Constraint.forName? (name ++ "~") = some .callable := Constraint.forName?_append name '~'

/-- A name with the suffix of namespaces. -/
theorem Constraint.forName?_namespace (name : String) :
    Constraint.forName? (name ++ ":") = some .namespaced := Constraint.forName?_append name ':'

namespace Store

/-- **What a name promises of a cell.**  If the name has a suffix, the cell is there and holds what the suffix
asks for, and no assignment can change that. -/
def Honours (s : Store) (name : String) (c : CellId) : Prop :=
  ∀ k, Constraint.forName? name = some k →
    ∃ cell, s.cell? c = some cell ∧ k.check cell.value = .ok () ∧
      (cell.constraint = some k ∨ cell.readOnly = true)

/-- **Every bound name keeps its promise.** -/
def Fits (s : Store) : Prop := ∀ scope, ∀ e ∈ s.scope scope, s.Honours e.1 e.2

variable {s t : Store} {name : String} {c : CellId}

/-- A name without a suffix promises nothing. -/
theorem honours_plain (h : Constraint.forName? name = none) (c : CellId) : s.Honours name c := by
  intro k hk
  rw [h] at hk
  exact nomatch hk

/-- A name that was bound before keeps its promise where cells are only added. -/
theorem Honours.mono (h : s.Honours name c)
    (kept : ∀ c cell, s.cell? c = some cell → t.cell? c = some cell) : t.Honours name c := by
  intro k hk
  obtain ⟨cell, hc, holds⟩ := h k hk
  exact ⟨cell, kept c cell hc, holds⟩

theorem honours_newCell (s : Store) {cell : Cell}
    (h : ∀ k, Constraint.forName? name = some k → k.check cell.value = .ok () ∧
      (cell.constraint = some k ∨ cell.readOnly = true)) :
    (s.newCell cell).2.Honours name ⟨s.cells.size⟩ := by
  intro k hk
  refine ⟨cell, ?_, h k hk⟩
  rw [cell?_newCell, if_pos rfl]

/-- The first value of a variable with the constraint of its name. -/
theorem honours_forName (s : Store) {v : Value}
    (h : ∀ k, Constraint.forName? name = some k → k.check v = .ok ()) :
    (s.newCell (.forName name v)).2.Honours name ⟨s.cells.size⟩ :=
  s.honours_newCell fun k hk => ⟨h k hk, .inl hk⟩

/-- A fresh variable keeps the promise of its name. -/
theorem honours_declare (s : Store) (name : String) :
    (s.declare name).2.Honours name (s.declare name).1 := by
  unfold declare
  split
  · next hk =>
    refine s.honours_forName fun k hk' => ?_
    rw [hk] at hk'
    cases hk'
    rfl
  · next hk =>
    refine honours_forName _ fun k hk' => ?_
    rw [hk] at hk'
    cases hk'
    rfl
  · next hk => exact honours_plain hk _

/-- Assigning keeps all promises: the constraint refuses everything else. -/
theorem Honours.assign {d : CellId} {cell cell' : Cell} {v : Value} (h : s.Honours name c)
    (hd : s.cell? d = some cell) (hv : cell.assign v = .ok cell') :
    (s.setCell d cell').Honours name c := by
  intro k hk
  obtain ⟨old, hc, holds, guard⟩ := h k hk
  by_cases same : d = c
  · subst same
    obtain rfl : cell = old := Option.some.inj (hd.symm.trans hc)
    refine ⟨cell', by rw [cell?_setCell, if_pos rfl, hc]; rfl, ?_⟩
    unfold Cell.assign at hv
    rcases guard with constrained | readOnly
    · split at hv
      · exact nomatch hv
      · rw [constrained] at hv
        dsimp only at hv
        cases hcheck : k.check v with
        | error e =>
          rw [hcheck] at hv
          exact nomatch hv
        | ok u =>
          rw [hcheck] at hv
          obtain rfl := Except.ok.inj hv
          exact ⟨hcheck, .inl rfl⟩
    · rw [if_pos readOnly] at hv
      exact nomatch hv
  · refine ⟨old, ?_, holds, guard⟩
    rw [cell?_setCell, if_neg same, hc]

theorem Honours.write {d : CellId} {v : Value} (h : s.Honours name c)
    (hv : s.write d v = .ok t) : t.Honours name c := by
  unfold Store.write changeCell at hv
  cases hd : s.cell? d with
  | none =>
    rw [hd] at hv
    cases hv
    exact h
  | some cell =>
    cases hassign : cell.assign v with
    | error e =>
      simp only [hd, hassign] at hv
      exact nomatch hv
    | ok cell' =>
      simp only [hd, hassign] at hv
      cases hv
      exact h.assign hd hassign

theorem Fits.newCell (h : s.Fits) (cell : Cell) : (s.newCell cell).2.Fits :=
  fun scope e he => (h scope e he).mono fun _ _ => cell?_newCell_of_some s cell

theorem Fits.newScope (h : s.Fits) {entries : Table CellId}
    (hentries : ∀ e ∈ entries, s.Honours e.1 e.2) : (s.newScope entries).2.Fits := by
  intro scope e he
  rw [scope_newScope] at he
  split at he
  · exact hentries e he
  · exact h scope e he

/-- The scope that is changed has the changed entries, unless it is not there. -/
theorem scope_modify (s : Store) (scope : ScopeId) (change : Table CellId → Table CellId)
    (other : ScopeId) :
    Store.scope { s with scopes := s.scopes.modify scope.index change } other =
      if scope = other ∧ scope.index < s.scopes.size then change (s.scope other)
      else s.scope other := by
  unfold Store.scope
  dsimp only
  by_cases known : scope.index < s.scopes.size
  · rw [getD_modify _ _ _ _ known]
    by_cases same : scope = other
    · subst same
      rw [if_pos rfl, if_pos ⟨rfl, known⟩]
    · rw [if_neg fun hi => same (ScopeId.eq_of_index hi), if_neg fun both => same both.1]
  · rw [if_neg fun both => known both.2, Array.getD_eq_getD_getElem?, Array.getD_eq_getD_getElem?,
      Array.getElem?_modify]
    split
    · next hi =>
      rw [← hi, Array.getElem?_eq_none (Nat.le_of_not_lt known)]
      rfl
    · rfl

theorem Fits.bind (h : s.Fits) (scope : ScopeId) {name : String} {c : CellId}
    (hc : s.Honours name c) : (s.bind scope name c).Fits := by
  intro other e he
  unfold Store.bind at he
  rw [scope_modify] at he
  split at he
  · rcases Table.mem_insert he with rfl | he
    · exact hc
    · exact h other e he
  · exact h other e he

theorem Fits.unbind (h : s.Fits) (scope : ScopeId) (name : String) : (s.unbind scope name).Fits := by
  intro other e he
  unfold Store.unbind at he
  rw [scope_modify] at he
  split at he
  · exact h other e (Table.mem_of_mem_erase he)
  · exact h other e he

theorem Fits.assign (h : s.Fits) {d : CellId} {cell cell' : Cell} {v : Value}
    (hd : s.cell? d = some cell) (hv : cell.assign v = .ok cell') : (s.setCell d cell').Fits :=
  fun scope e he => (h scope e he).assign hd hv

end Store

end ValueShell
