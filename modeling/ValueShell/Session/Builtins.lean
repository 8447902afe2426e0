/-
  The builtin names.

  Every builtin command is bound under its name with the function suffix.  Besides there are the two
  truth values and the number of the process.
-/
import ValueShell.Store

namespace ValueShell

namespace Builtin

/-- The builtin names with their values. -/
def bindings (processId : String) : List (String × Value) :=
  (list.map fun b => (b.name ++ "~", Value.function (.builtin b))) ++
    [("true", .bool true), ("false", .bool false), ("pid", .text processId)]

/-- The builtin names. -/
def scopeNames : List String := (bindings "").map Prod.fst

end Builtin

/-- Binds constants in a scope. -/
def Store.bindConstants (s : Store) (scope : ScopeId) (bindings : List (String × Value)) : Store :=
  bindings.foldl (fun s (name, v) => s.bindNew scope name (.constant v)) s

namespace Store

theorem size_bindConstants (s : Store) (scope : ScopeId) (bindings : List (String × Value)) :
    (s.bindConstants scope bindings).scopes.size = s.scopes.size := by
  induction bindings generalizing s with
  | nil => rfl
  | cons b bindings ih => exact (ih _).trans (size_bindNew s ..)

/-- The scope has the names of the constants, and those it had. -/
theorem mem_names_bindConstants {s : Store} {scope : ScopeId} (known : scope.index < s.scopes.size)
    (bindings : List (String × Value)) {x : String} :
    x ∈ (s.bindConstants scope bindings).names scope ↔
      x ∈ bindings.map Prod.fst ∨ x ∈ s.names scope := by
  induction bindings generalizing s with
  | nil => simp [bindConstants]
  | cons b bindings ih =>
    refine (ih (s := s.bindNew scope b.1 (.constant b.2)) (size_bindNew s .. ▸ known)).trans ?_
    rw [mem_names_bindNew known, List.map_cons, List.mem_cons, or_left_comm, or_assoc]

/-- Other names lead where they led. -/
theorem find?_bindConstants_of_not_mem {s : Store} {scope : ScopeId} (known : scope.index < s.scopes.size)
    (bindings : List (String × Value)) {x : String} (other : x ∉ bindings.map Prod.fst) :
    (s.bindConstants scope bindings).find? scope x = s.find? scope x := by
  induction bindings generalizing s with
  | nil => rfl
  | cons b bindings ih =>
    rw [List.map_cons, List.mem_cons, not_or] at other
    exact (ih (size_bindNew s .. ▸ known) other.2).trans (find?_bindNew_of_ne known (Ne.symm other.1) _)

/-- The cells that were there stay as they are. -/
theorem cell?_bindConstants_of_some {s : Store} (scope : ScopeId) (bindings : List (String × Value))
    {c : CellId} {cell : Cell} (h : s.cell? c = some cell) :
    (s.bindConstants scope bindings).cell? c = some cell := by
  induction bindings generalizing s with
  | nil => exact h
  | cons b bindings ih => exact ih (cell?_newCell_of_some s _ h)

/-- **Each constant is found under its name**, if no two have the same. -/
theorem find?_bindConstants {s : Store} {scope : ScopeId} (known : scope.index < s.scopes.size)
    {bindings : List (String × Value)} (distinct : (bindings.map Prod.fst).Nodup) {x : String} {v : Value}
    (mem : (x, v) ∈ bindings) :
    ∃ c, (s.bindConstants scope bindings).find? scope x = some c ∧
      (s.bindConstants scope bindings).cell? c = some (.constant v) := by
  induction bindings generalizing s with
  | nil => cases mem
  | cons b bindings ih =>
    have still : scope.index < (s.bindNew scope b.1 (.constant b.2)).scopes.size := size_bindNew s .. ▸ known
    obtain ⟨apart, distinct⟩ := List.nodup_cons.mp distinct
    cases mem with
    | tail _ mem => exact ih still distinct mem
    -- those after it have other names and cells
    | head =>
      have found := (find?_bindConstants_of_not_mem still bindings apart).trans (find?_bindNew known x _)
      exact ⟨_, found, cell?_bindConstants_of_some scope bindings ((cell?_newCell s _ _).trans (if_pos rfl))⟩

end Store

namespace Builtin

/-- No two builtins have the same name. -/
theorem distinct_bindings (processId : String) : ((bindings processId).map Prod.fst).Nodup := by
  show scopeNames.Nodup
  decide +kernel

/-- Every builtin command is among what is bound. -/
theorem command_mem_bindings (b : Builtin) (processId : String) :
    (b.name ++ "~", .function (.builtin b)) ∈ bindings processId :=
  List.mem_append_left _ (List.mem_map.mpr ⟨b, mem_list b, rfl⟩)

end Builtin

end ValueShell
