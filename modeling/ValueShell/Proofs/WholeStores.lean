/-
  Every name is bound to a variable that there is.

  A scope maps names to the numbers of cells, and nothing about a number says that there is a cell of that
  number.  But cells are never taken away, a name is bound to a cell only once the cell has been made, and
  a scope that is made with names has them from other scopes.  So in no moment of a session does a name
  lead nowhere (`Session.Moment.whole`), and what a name stands for can be assigned to.
-/
import ValueShell.Proofs.SessionStates
import ValueShell.Proofs.SuffixedNames

namespace ValueShell

namespace Store

/-- **Every name is bound to a cell that there is.** -/
def Whole (s : Store) : Prop := ∀ scope, ∀ e ∈ s.scope scope, (s.cell? e.2).isSome

namespace Whole

variable {s : Store}

/-- A new cell is there. -/
theorem newCell (h : s.Whole) (cell : Cell) : (s.newCell cell).2.Whole := by
  intro scope e he
  obtain ⟨found, held⟩ := Option.isSome_iff_exists.mp (h scope e he)
  rw [cell?_newCell_of_some s cell held]
  rfl

/-- A new scope has cells that are known. -/
theorem newScope (h : s.Whole) {entries : Table CellId}
    (known : ∀ e ∈ entries, ∃ scope, e ∈ s.scope scope) : (s.newScope entries).2.Whole := by
  intro scope e he
  rw [scope_newScope] at he
  split at he
  · obtain ⟨other, there⟩ := known e he
    exact h other e there
  · exact h scope e he

theorem fresh (h : s.Whole) : (s.newScope []).2.Whole := h.newScope nofun

theorem setCell (h : s.Whole) (c : CellId) (cell : Cell) : (s.setCell c cell).Whole := by
  intro scope e he
  rw [isSome_cell?_setCell]
  exact h scope e he

/-- A name may be bound to a cell that is there. -/
theorem bind (h : s.Whole) (scope : ScopeId) (name : String) {c : CellId}
    (known : (s.cell? c).isSome) : (s.bind scope name c).Whole := by
  intro other e he
  unfold Store.bind at he
  rw [scope_modify] at he
  split at he
  · rcases Table.mem_insert he with rfl | he
    · exact known
    · exact h other e he
  · exact h other e he

theorem unbind (h : s.Whole) (scope : ScopeId) (name : String) : (s.unbind scope name).Whole := by
  intro other e he
  unfold Store.unbind at he
  rw [scope_modify] at he
  split at he
  · exact h other e (Table.mem_of_mem_erase he)
  · exact h other e he

theorem bindNew (h : s.Whole) (scope : ScopeId) (name : String) (cell : Cell) :
    (s.bindNew scope name cell).Whole :=
  (h.newCell cell).bind scope name (s.isSome_cell?_newCell cell)

theorem bindConstants (h : s.Whole) (scope : ScopeId) (bindings : List (String × Value)) :
    (s.bindConstants scope bindings).Whole := by
  induction bindings generalizing s with
  | nil => exact h
  | cons b bindings ih => exact ih (h.bindNew scope b.1 (.constant b.2))

/-- **What a name stands for is there.** -/
theorem find? (h : s.Whole) {f : Frame} {ns name : String} {c : CellId}
    (found : f.find? s ns name = some (.cell c)) : ∃ cell, s.cell? c = some cell := by
  have named {scope : ScopeId} {name : String} (found : s.find? scope name = some c) :
      ∃ cell, s.cell? c = some cell :=
    Option.isSome_iff_exists.mp (h scope _ (Table.mem_of_find? found))
  unfold Frame.find? at found
  split at found
  · obtain ⟨c', plain, same⟩ := Option.map_eq_some_iff.mp found
    cases same
    unfold Frame.findPlain? at plain
    rcases Option.or_eq_some_iff.mp plain with plain | ⟨-, plain⟩
    · rcases Option.or_eq_some_iff.mp plain with plain | ⟨-, plain⟩
      · exact named plain
      · exact named plain
    · exact named plain
  · obtain ⟨c', there, same⟩ := Option.map_eq_some_iff.mp found
    cases same
    exact named there
  · obtain ⟨c', there, same⟩ := Option.map_eq_some_iff.mp found
    cases same
    exact named there
  · obtain ⟨c', there, same⟩ := Option.map_eq_some_iff.mp found
    cases same
    exact named there
  · cases found
  · split at found
    · cases found
    · cases found
  · obtain ⟨scope, -, found⟩ := Option.bind_eq_some_iff.mp found
    obtain ⟨c', there, same⟩ := Option.map_eq_some_iff.mp found
    cases same
    exact named there

end Whole

end Store

/-! ## Runs -/

/-- No change makes a name lead nowhere. -/
theorem Change.whole {home : Option ScopeId} {loading : List String} {w w' : World}
    (change : Change home loading w w') (h : w.store.Whole) : w'.store.Whole := by
  cases change with
  | surroundings | raise | enter | imports | newIdentity => exact h
  | newCell cell => exact h.newCell cell
  | newScope entries known => exact h.newScope known
  | assign => exact h.setCell _ _
  | bind home name known => exact h.bind _ name known
  | unbind home name => exact h.unbind _ name

/-- A run binds no name to what is not there, however it ends. -/
theorem Evolves.whole {e : Ending} {home : Option ScopeId} {loading : List String} {w w' : World}
    (run : Evolves e home loading w w') (h : w.store.Whole) : w'.store.Whole := by
  induction run with
  | refl | cut | stuck => exact h
  | change change => exact change.whole h
  | trans _ _ first later => exact later (first h)
  -- a call and a load begin with a scope without names
  | inside _ ih | loaded _ _ ih | failed _ _ ih | unsettled _ _ _ ih => exact ih (h.fresh)

/-! ## Sessions -/

namespace Session

variable {library : Library} {environment : Environment} {files : FileTree} {processId : String}

/-- **In a session that starts, every name leads to a cell,** -/
theorem whole_start : (start library environment files processId).world.store.Whole := by
  obtain ⟨s₀, made, here⟩ := start_eq library environment files processId
  have none : Store.empty.Whole := fun _ _ he => nomatch he
  rw [here, made]
  exact ((none.fresh).bindConstants _ _).fresh

variable {s t : Session}

/-- **and so it does from then on.** -/
theorem Later.whole (later : s.Later t) (h : s.world.store.Whole) : t.world.store.Whole := by
  induction later with
  | now => exact h
  | @unit t _ fuel source ports ih =>
    obtain same | ⟨e, w, evolves, same⟩ := evaluate_state t fuel source ports
    · rw [same]
      exact ih
    · rw [same]
      exact evolves.whole (ih.fresh)
  | global _ name v ih => exact ih.bindNew _ _ _
  | host _ _ _ _ ih => exact ih

/-- **In every moment of a session, every name is bound to a variable that there is.** -/
theorem Moment.whole {f : Frame} {w : World}
    (moment : (start library environment files processId).Moment f w) : w.store.Whole := by
  induction moment with
  | unit before => exact (before.whole whole_start).fresh
  | later _ run ih => exact run.whole ih
  | part _ _ _ ih => exact ih
  | call _ _ _ ih => exact ih.fresh
  | load _ _ ih => exact (ih.fresh).fresh

end Session

end ValueShell
