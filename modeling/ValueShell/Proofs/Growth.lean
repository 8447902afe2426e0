/-
  What outlives a run.

  Code adds cells and scopes and never removes one.  A scope that is not at home in the running code
  keeps its entries, a read-only cell keeps its value, and the journal only gets longer.  `Grows` states
  this about two worlds; it holds between the ends of every run, by induction over `Evolves`.
-/
import ValueShell.Proofs.Evolution

namespace ValueShell

/-- **What a run leaves as it was**, all but the scope that is its home. -/
structure Grows (home : Option ScopeId) (w w' : World) : Prop where
  scopes : w.store.scopes.size ≤ w'.store.scopes.size
  kept : ∀ scope : ScopeId, scope.index < w.store.scopes.size → home ≠ some scope →
    w'.store.scope scope = w.store.scope scope
  constant : ∀ c cell, w.store.cell? c = some cell → cell.readOnly = true →
    w'.store.cell? c = some cell
  journal : ∃ events, w'.journal = events ++ w.journal

namespace Grows

variable {home : Option ScopeId} {w w' w'' : World}

theorem refl (home : Option ScopeId) (w : World) : Grows home w w :=
  ⟨Nat.le_refl _, fun _ _ _ => rfl, fun _ _ h _ => h, [], rfl⟩

theorem trans (first : Grows home w w') (later : Grows home w' w'') : Grows home w w'' := by
  obtain ⟨es, hes⟩ := first.journal
  obtain ⟨es', hes'⟩ := later.journal
  refine ⟨Nat.le_trans first.scopes later.scopes, fun scope hlt hne => ?_,
    fun c cell hc hro => later.constant c cell (first.constant c cell hc hro) hro,
    es' ++ es, by rw [hes', hes, List.append_assoc]⟩
  rw [later.kept scope (Nat.lt_of_lt_of_le hlt first.scopes) hne, first.kept scope hlt hne]

/-- With the same store, only the journal can differ. -/
theorem ofStore (hs : w'.store = w.store) (hj : ∃ events, w'.journal = events ++ w.journal) :
    Grows home w w' :=
  ⟨Nat.le_of_eq (by rw [hs]), fun _ _ _ => by rw [hs], fun _ _ h _ => by rw [hs]; exact h, hj⟩

/-- What a fresh scope is home to leaves everything else alone. -/
theorem ofFresh {w₁ : World} (first : Grows none w w₁) {scope : ScopeId}
    (fresh : w.store.scopes.size ≤ scope.index) (h : Grows (some scope) w₁ w') :
    Grows home w w' := by
  obtain ⟨es, hes⟩ := first.journal
  obtain ⟨es', hes'⟩ := h.journal
  refine ⟨Nat.le_trans first.scopes h.scopes, fun other hlt _ => ?_,
    fun c cell hc hro => h.constant c cell (first.constant c cell hc hro) hro,
    es' ++ es, by rw [hes', hes, List.append_assoc]⟩
  -- a scope that was there before is not the fresh one
  have hne : some scope ≠ some other := by
    intro heq
    cases heq
    omega
  rw [h.kept other (Nat.lt_of_lt_of_le hlt first.scopes) hne,
    first.kept other hlt nofun]

/-- Code without a home does what code at home in any scope may do. -/
theorem widen (h : Grows none w w') (home : Option ScopeId) : Grows home w w' :=
  ⟨h.scopes, fun scope hlt _ => h.kept scope hlt nofun, h.constant, h.journal⟩

/-- Away from home every name leads where it led. -/
theorem find?_eq_of_ne (h : Grows home w w') {scope : ScopeId} (known : scope.index < w.store.scopes.size)
    (away : home ≠ some scope) (name : String) : w'.store.find? scope name = w.store.find? scope name :=
  congrArg (Table.find? · name) (h.kept scope known away)

/-- Code without a home is away everywhere. -/
theorem find?_eq (h : Grows none w w') {scope : ScopeId} (known : scope.index < w.store.scopes.size)
    (name : String) : w'.store.find? scope name = w.store.find? scope name :=
  h.find?_eq_of_ne known (Option.some_ne_none scope).symm name

end Grows

/-! ## Changes of the store -/

theorem Grows.newScope (home : Option ScopeId) (w : World) (entries : Table CellId) :
    Grows home w { w with store := (w.store.newScope entries).2 } where
  scopes := by
    show _ ≤ (w.store.scopes.push entries).size
    rw [Array.size_push]
    omega
  kept _ hlt _ := Store.scope_newScope_of_lt _ _ hlt
  constant _ _ h _ := h
  journal := ⟨[], rfl⟩

theorem Grows.newCell (home : Option ScopeId) (w : World) (c : Cell) :
    Grows home w { w with store := (w.store.newCell c).2 } where
  scopes := Nat.le_refl _
  kept _ _ _ := rfl
  constant _ _ h _ := Store.cell?_newCell_of_some _ _ h
  journal := ⟨[], rfl⟩

/-- An assignment to a read-only cell is refused. -/
theorem Cell.assign_readOnly {cell cell' : Cell} {v : Value} (h : cell.assign v = .ok cell') :
    cell.readOnly = false := by
  cases hro : cell.readOnly with
  | false => rfl
  | true =>
    rw [Cell.assign, if_pos hro] at h
    exact nomatch h

/-- An assignment leaves all of a variable but its value. -/
theorem Cell.assign_eq {cell cell' : Cell} {v : Value} (h : cell.assign v = .ok cell') :
    cell' = { cell with value := v } := by
  unfold Cell.assign at h
  split at h
  · exact nomatch h
  · split at h
    · next constraint _ =>
      cases hk : constraint.check v with
      | error e => rw [hk] at h; exact nomatch h
      | ok u =>
        rw [hk] at h
        cases h
        rfl
    · cases h
      rfl

theorem Grows.assign (home : Option ScopeId) {w : World} {c : CellId} {cell cell' : Cell}
    {v : Value} (hc : w.store.cell? c = some cell) (hv : cell.assign v = .ok cell') :
    Grows home w { w with store := w.store.setCell c cell' } where
  scopes := Nat.le_refl _
  kept _ _ _ := rfl
  constant other old h hro := by
    have hne : c ≠ other := by
      rintro rfl
      rw [hc] at h
      cases h
      rw [Cell.assign_readOnly hv] at hro
      exact nomatch hro
    show (w.store.setCell c cell').cell? other = some old
    rw [Store.cell?_setCell, if_neg hne, h]
  journal := ⟨[], rfl⟩

theorem Grows.bind {home : Option ScopeId} {scope : ScopeId} (hs : home = some scope) (w : World)
    (name : String) (c : CellId) :
    Grows home w { w with store := w.store.bind scope name c } where
  scopes := by
    show _ ≤ (w.store.scopes.modify _ _).size
    exact Nat.le_of_eq Array.size_modify.symm
  kept other _ hne := Store.scope_bind_of_ne _ _ _ fun h => hne (h ▸ hs)
  constant _ _ h _ := h
  journal := ⟨[], rfl⟩

theorem Grows.unbind {home : Option ScopeId} {scope : ScopeId} (hs : home = some scope)
    (w : World) (name : String) :
    Grows home w { w with store := w.store.unbind scope name } where
  scopes := by
    show _ ≤ (w.store.scopes.modify _ _).size
    exact Nat.le_of_eq Array.size_modify.symm
  kept other _ hne := Store.scope_unbind_of_ne _ _ fun h => hne (h ▸ hs)
  constant _ _ h _ := h
  journal := ⟨[], rfl⟩

theorem Grows.beginLoad (home : Option ScopeId) (w : World) (path : String) :
    Grows home w (w.beginLoad path) :=
  (Grows.newScope home w []).trans (.ofStore rfl ⟨[], rfl⟩)

/-- **One change** leaves all but the home scope as it was. -/
theorem Change.grows {home : Option ScopeId} {loading : List String} {w w' : World}
    (h : Change home loading w w') : Grows home w w' := by
  cases h with
  | surroundings => exact .ofStore rfl ⟨[], rfl⟩
  | raise f => exact .ofStore rfl ⟨[.raised f], rfl⟩
  | enter code _ => exact .ofStore rfl ⟨[.running _ code], rfl⟩
  | imports _ => exact .ofStore rfl ⟨[.imported _ _], rfl⟩
  | newCell c => exact .newCell home w c
  | newScope entries => exact .newScope home w entries
  | newIdentity => exact ⟨Nat.le_refl _, fun _ _ _ => rfl, fun _ _ h _ => h, [], rfl⟩
  | assign hc hv => exact .assign home hc hv
  | bind hs name => exact .bind hs w name _
  | unbind hs name => exact .unbind hs w name

/-- **A whole run** leaves all but the home scope as it was, however it ends. -/
theorem Evolves.grows {e : Ending} {home : Option ScopeId} {loading : List String} {w w' : World}
    (h : Evolves e home loading w w') : Grows home w w' := by
  induction h with
  | refl w => exact .refl _ w
  | change h => exact h.grows
  | trans _ _ first later => exact first.trans later
  | cut w => exact .refl _ w
  | stuck => exact .refl _ _
  | inside _ ih => exact .ofFresh (.newScope none _ []) (Nat.le_refl _) ih
  | @loaded _ _ w w' path _ _ ih =>
    exact (Grows.ofFresh (.beginLoad none w path) (Nat.le_refl _) ih).trans
      (.ofStore rfl ⟨[.loaded path], rfl⟩)
  | @failed _ _ w w' path _ _ ih =>
    exact (Grows.ofFresh (.beginLoad none w path) (Nat.le_refl _) ih).trans
      (.ofStore rfl ⟨[.failed path], rfl⟩)
  | @unsettled _ _ _ w w' path _ _ _ ih =>
    exact .ofFresh (.beginLoad none w path) (Nat.le_refl _) ih

end ValueShell
