/-
  Where a path is blocked.

  The three walks along a path (the check before an assignment, the write, and the removal) say at which index they
  fail.  Which index that ought to be is said here without any of them: it is the first at which one cannot go on,
  by what is before it and what the index denotes there (`Unassignable`, `Unremovable`).  Each walk fails at that
  index, and where there is none it succeeds, by induction over the path.
-/
import ValueShell.Proofs.ElementRemoval

namespace ValueShell

namespace Value

/-- **The first bracket at which an assignment cannot go on**, counted from one.  What is before it is no list or
map; or its index finds nothing there, and is not the last one; or it is the last, and denotes no slot.  A new key
of a map denotes one. -/
inductive Unassignable : Value → List Value → Nat → Prop
  | flat {v key : Value} {path : List Value} (whole : v.isContainer = false) :
      Unassignable v (key :: path) 1
  | absent {v key : Value} {path : List Value} {fault : Fault} (deep : path ≠ [])
      (missing : v.index key = .error fault) : Unassignable v (key :: path) 1
  | slotless {v key : Value} (none : v.slot? key = none) : Unassignable v [key] 1
  | deeper {v child key : Value} {path : List Value} {k : Nat} (container : v.isContainer = true)
      (down : v.index key = .ok child) (later : Unassignable child path k) :
      Unassignable v (key :: path) (k + 1)

/-- **The first bracket at which a removal cannot go on**, counted from one.  Its index finds nothing, and is not
the last one; or it is the last, and what is before it is no map, or it is no key. -/
inductive Unremovable : Value → List Value → Nat → Prop
  | absent {v key : Value} {path : List Value} {fault : Fault} (deep : path ≠ [])
      (missing : v.index key = .error fault) : Unremovable v (key :: path) 1
  | fixed {v key : Value} (unmapped : ∀ entries, v ≠ .map entries) : Unremovable v [key] 1
  | keyless {v key : Value} {fault : Fault} (invalid : key.toKey = .error fault) : Unremovable v [key] 1
  | deeper {v child key : Value} {path : List Value} {k : Nat} (deep : path ≠ [])
      (down : v.index key = .ok child) (later : Unremovable child path k) :
      Unremovable v (key :: path) (k + 1)

section Walks

variable {v : Value} {path : List Value} {k : Nat}

theorem Unassignable.deep (h : v.Unassignable path k) : path ≠ [] := by cases h <;> simp

theorem Unassignable.bounds (h : v.Unassignable path k) : 1 ≤ k ∧ k ≤ path.length := by
  induction h with
  | flat | absent | slotless => exact ⟨Nat.le_refl 1, Nat.le_add_left 1 _⟩
  | deeper _ _ _ ih => exact ⟨Nat.le_add_left 1 _, Nat.succ_le_succ ih.2⟩

theorem Unremovable.bounds (h : v.Unremovable path k) : 1 ≤ k ∧ k ≤ path.length := by
  induction h with
  | absent | fixed | keyless => exact ⟨Nat.le_refl 1, Nat.le_add_left 1 _⟩
  | deeper _ _ _ ih => exact ⟨Nat.le_add_left 1 _, Nat.succ_le_succ ih.2⟩

/-- Where an index denotes no slot, nothing is replaced. -/
theorem assoc_of_slotless {c key : Value} (none : c.slot? key = none) (new : Value) :
    ∃ fault, c.assoc key new = .error fault := by
  cases h : c.assoc key new with
  | error fault => exact ⟨fault, rfl⟩
  | ok c' =>
    cases replaced_of_assoc h with
    | list denotes =>
      rw [slot?, denotes] at none
      cases none
    | map denotes =>
      rw [slot?, denotes] at none
      cases none

/-- Where it denotes one, everything is. -/
theorem assoc_of_slot? {c key : Value} (some : c.slot? key ≠ none) (new : Value) :
    ∃ c', c.assoc key new = .ok c' := by
  cases c with
  | list items =>
    cases denotes : key.toPosition items.length with
    | error fault =>
      rw [slot?, denotes] at some
      exact absurd rfl some
    | ok i => exact ⟨.list (items.set i new), by simp only [assoc, denotes, bind, Except.bind]; rfl⟩
  | map entries =>
    cases denotes : key.toKey with
    | error fault =>
      rw [slot?, denotes] at some
      exact absurd rfl some
    | ok k => exact ⟨.map (Table.insert entries k new), by simp only [assoc, denotes, bind, Except.bind]; rfl⟩
  | _ => exact absurd rfl some

/-- A step of the check through a list or a map. -/
theorem checkPathFrom_cons {level : Nat} {key child : Value} (container : v.isContainer = true) (deep : path ≠ [])
    (down : v.index key = .ok child) :
    checkPathFrom level v (key :: path) = checkPathFrom (level + 1) child path := by
  rw [checkPathFrom, container, down]
  cases path with
  | nil => exact absurd rfl deep
  | cons _ _ => rfl

/-- **An assignment fails at the first bracket at which it cannot go on**: in the check, or else when it writes. -/
theorem Unassignable.blamed (h : v.Unassignable path k) : ∀ level,
    (∃ fault, checkPathFrom level v path = .error (.atLevel (level + k - 1) fault)) ∨
      (checkPathFrom level v path = .ok () ∧
        ∀ new, ∃ fault, setPathFrom level v new path = .error (.atLevel (level + k - 1) fault)) := by
  induction h with
  | @flat v key path whole =>
    intro level
    refine .inl ⟨.notAssignable v.kind, ?_⟩
    rw [checkPathFrom, whole]
    rfl
  | @absent v key path fault deep missing =>
    intro level
    cases container : v.isContainer with
    | false =>
      refine .inl ⟨.notAssignable v.kind, ?_⟩
      rw [checkPathFrom, container]
      rfl
    | true =>
      refine .inl ⟨fault, ?_⟩
      rw [checkPathFrom, container, missing]
      cases path with
      | nil => exact absurd rfl deep
      | cons _ _ => rfl
  | @slotless v key none =>
    intro level
    cases container : v.isContainer with
    | false =>
      refine .inl ⟨.notAssignable v.kind, ?_⟩
      rw [checkPathFrom, container]
      rfl
    | true =>
      refine .inr ⟨by rw [checkPathFrom, container]; rfl, fun new => ?_⟩
      obtain ⟨fault, refused⟩ := assoc_of_slotless none new
      exact ⟨fault, by rw [setPathFrom, refused]; rfl⟩
  | @deeper v child key path k container down later ih =>
    intro level
    have shift : level + (k + 1) - 1 = level + 1 + k - 1 := by omega
    rw [checkPathFrom_cons container later.deep down, shift]
    refine (ih (level + 1)).imp_right fun below => ⟨below.1, fun new => ?_⟩
    obtain ⟨fault, failed⟩ := below.2 new
    exact ⟨fault, by rw [setPathFrom_cons down, failed]; rfl⟩

/-- **Where an assignment can go on at every bracket, it does**, in the check and when it writes. -/
theorem assignable : ∀ (path : List Value) (v : Value), (∀ k, ¬v.Unassignable path k) → ∀ level,
    checkPathFrom level v path = .ok () ∧ ∀ new, ∃ whole, setPathFrom level v new path = .ok whole
  | [], _, _, _ => ⟨rfl, fun new => ⟨new, rfl⟩⟩
  | key :: path, v, free, level => by
    have container : v.isContainer = true := by
      cases here : v.isContainer with
      | false => exact absurd (.flat here) (free 1)
      | true => rfl
    match path with
    | [] =>
      refine ⟨by rw [checkPathFrom, container]; rfl, fun new => ?_⟩
      obtain ⟨whole, up⟩ := assoc_of_slot? (fun none => free 1 (.slotless none)) new
      exact ⟨whole, by rw [setPathFrom, up]; rfl⟩
    | second :: rest =>
      cases down : v.index key with
      | error fault => exact absurd (.absent (by simp) down) (free 1)
      | ok child =>
        obtain ⟨checked, sets⟩ := assignable (second :: rest) child
          (fun k later => free (k + 1) (.deeper container down later)) (level + 1)
        refine ⟨by rw [checkPathFrom_cons container (by simp) down, checked], fun new => ?_⟩
        obtain ⟨child', inner⟩ := sets new
        obtain ⟨whole, up⟩ := assoc_of_index container down child'
        refine ⟨whole, ?_⟩
        rw [setPathFrom_cons down, inner]
        show blame level (v.assoc key child') = _
        rw [up]
        rfl

/-- **A removal fails at the first bracket at which it cannot go on.** -/
theorem Unremovable.blamed (h : v.Unremovable path k) : ∀ level,
    ∃ fault, removePathFrom level v path = .error (.atLevel (level + k - 1) fault) := by
  induction h with
  | @absent v key path fault deep missing =>
    intro level
    refine ⟨fault, ?_⟩
    rw [removePathFrom_cons deep, missing]
    rfl
  | @fixed v key unmapped =>
    intro level
    refine ⟨.notRemovable, ?_⟩
    cases v with
    | map entries => exact absurd rfl (unmapped entries)
    | _ => rfl
  | @keyless v key fault invalid =>
    intro level
    cases v with
    | map entries =>
      refine ⟨fault, ?_⟩
      simp only [removePathFrom, dissoc, invalid]
      rfl
    | _ => exact ⟨.notRemovable, rfl⟩
  | @deeper v child key path k deep down later ih =>
    intro level
    have shift : level + (k + 1) - 1 = level + 1 + k - 1 := by omega
    obtain ⟨fault, failed⟩ := ih (level + 1)
    refine ⟨fault, ?_⟩
    rw [removePathFrom_cons deep, down, shift]
    show (removePathFrom (level + 1) child path).bind _ = _
    rw [failed]
    rfl

/-- What something was removed from is a list or a map. -/
theorem isContainer_of_removed {level : Nat} {whole : Value} (deep : path ≠ [])
    (h : removePathFrom level v path = .ok whole) : v.isContainer = true := by
  match path, deep with
  | [key], _ =>
    obtain ⟨entries, -, rfl, -⟩ := dissoc_ok (blame_ok h)
    rfl
  | key :: second :: rest, _ =>
    obtain ⟨child, child', -, -, up⟩ := down_ok h
    cases replaced_of_assoc up <;> rfl

/-- **Where a removal can go on at every bracket, it does.** -/
theorem removable : ∀ (path : List Value) (v : Value), (∀ k, ¬v.Unremovable path k) → ∀ level,
    ∃ whole, removePathFrom level v path = .ok whole
  | [], v, _, _ => ⟨v, rfl⟩
  | [key], v, free, level => by
    cases valid : key.toKey with
    | error fault => exact absurd (.keyless valid) (free 1)
    | ok k =>
      cases v with
      | map entries =>
        refine ⟨.map (Table.erase entries k), ?_⟩
        simp only [removePathFrom, dissoc, valid]
        rfl
      | _ => exact absurd (.fixed nofun) (free 1)
  | key :: second :: rest, v, free, level => by
    cases down : v.index key with
    | error fault => exact absurd (.absent (by simp) down) (free 1)
    | ok child =>
      obtain ⟨child', inner⟩ := removable (second :: rest) child
        (fun k later => free (k + 1) (.deeper (by simp) down later)) (level + 1)
      have container : v.isContainer = true := by
        cases flat : v.isContainer with
        | true => rfl
        | false =>
          exact (isContainer_index flat down).symm.trans (isContainer_of_removed (by simp) inner)
      obtain ⟨whole, up⟩ := assoc_of_index container down child'
      refine ⟨whole, ?_⟩
      rw [removePathFrom_cons (by simp), down]
      show (removePathFrom (level + 1) child (second :: rest)).bind _ = _
      rw [inner]
      show blame level (v.assoc key child') = _
      rw [up]
      rfl

end Walks

end Value

end ValueShell
