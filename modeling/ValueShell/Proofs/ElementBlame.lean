/-
  The bracket that is blamed.

  An element operation that fails because of its path blames one bracket, and what a user sees is the text from
  the start of the target to the end of that bracket.  The level comes from one of three walks: the check when an
  assignment resolves its target, the write, and the removal, each of which fails at the first bracket that blocks
  it or not at all (`Value.Unassignable.blamed`, `Value.Unremovable.blamed`).  The ends come from the compiler, and
  are those of the syntax (`ElementTarget.WrittenAs`).

  What is left is that the evaluator puts the two together on every course: a bracket without exactly one value, a
  target that cannot be resolved, and a write or a removal that is blocked, wherever in the operation it comes.
-/
import ValueShell.Proofs.AssignmentRuns
import ValueShell.Proofs.BlockedPaths
import ValueShell.Proofs.FixedBindings
import ValueShell.Proofs.WholeStores
import ValueShell.Proofs.WrittenTargets

namespace ValueShell

open Eval

/-- To remove an element below the first level is to assign what is left. -/
theorem Cell.removeElement_deep (cell : Cell) {path : List Value} (deep : path ≠ []) :
    cell.removeElement path = (do
      let whole ← cell.value.removePath path
      (cell.assign whole).mapError .whole) := if_neg (by simpa using deep)

theorem World.valueAt_cell {w : World} {c : CellId} {cell : Cell} (held : w.store.cell? c = some cell) :
    w.valueAt (.cell c) = cell.value := by
  show w.store.read c = _
  rw [Store.read, held]

/-! ## Blame -/

/-- It fails with an exception that blames the span, in this frame. -/
def Frame.FailsAt (f : Frame) (span : Span) {α : Type} (outcome : Except Stop α) : Prop :=
  ∃ fault, outcome = .error (.unwind (.exception ⟨fault, some (f.site span)⟩))

namespace Frame.FailsAt

variable {f : Frame} {span : Span} {α β : Type} {w : World}

/-- A fault fails at the place it is given. -/
theorem ofFault (fault : Fault) :
    f.FailsAt span ((Eval.fault fault : Eval α).located (f.site span) w).1 := ⟨fault, rfl⟩

/-- What fails does so before anything that comes after it. -/
theorem bind {x : Eval α} {k : α → Eval β} (h : f.FailsAt span (x w).1) :
    f.FailsAt span ((x >>= k) w).1 := by
  obtain ⟨fault, h⟩ := h
  exact ⟨fault, Conduct.bind_error h⟩

/-- A failure that has a place keeps it. -/
theorem located {x : Eval α} {site : Site} (h : f.FailsAt span (x w).1) :
    f.FailsAt span (x.located site w).1 := by
  obtain ⟨fault, h⟩ := h
  refine ⟨fault, ?_⟩
  rw [Eval.located, mapStop_run, h]
  rfl

/-- What is wrong at a level of a path fails at the brackets up to there. -/
theorem of_fail {e : ElementTarget} {err : ElementError} {level : Nat} (here : err.level = some level) :
    f.FailsAt (e.spanTo level) ((Target.element e).fail f err w : Except Stop α × World).1 := by
  have blamed : (Target.element e).blamed err = e.spanTo level := by
    unfold Target.blamed
    rw [here]
  rw [Target.fail, blamed]
  exact ofFault err.fault

end Frame.FailsAt

/-- The element at a path of what a place holds. -/
def Place.element : Place → List Value → Destination
  | .cell c, path => .element c path
  | place, _ => .place place

/-- A place that has elements. -/
def Place.HasElements (base : Place) : Prop := ∀ name, base ≠ .environment name

namespace Runner

variable {r : Runner} {f : Frame} {e : ElementTarget} {base : Place} {path : List Value} {k : Nat} {w w' : World}

/-- An irregular bracket is one of the brackets. -/
theorem Irregular.bounds {bs : List IndexBracket} (h : r.Irregular f bs k w) : 1 ≤ k ∧ k ≤ bs.length := by
  induction h with
  | here => exact ⟨Nat.le_refl 1, Nat.le_add_left 1 _⟩
  | later _ _ ih => exact ⟨Nat.le_add_left 1 _, Nat.succ_le_succ ih.2⟩

/-! ## Resolving a target -/

theorem resolveTarget_of_resolved {destination : Destination}
    (run : r.resolveElement f e w = (.ok destination, w')) :
    r.resolveTarget f (.element e) w = (.ok ⟨destination, .element e⟩, w') := by
  refine located_run_ok ?_
  show (r.resolveElement f e >>= fun destination => pure (Resolved.mk destination (.element e))) w = _
  rw [bind_run_ok run]
  rfl

section Resolving

variable (found : f.find? w.store e.ns e.name = some base)
include found

/-- How an element is resolved whose base has elements. -/
theorem resolveElement_of_elements (elements : base.HasElements) :
    r.resolveElement f e w = (do
      let path ← r.elementPath f .multipleIndices e
      match ((← get).valueAt base).checkPath path with
      | .error error => (Target.element e).fail f error
      | .ok () => return base.element path : Eval Destination) w := by
  rw [resolveElement, get_bind_run, found]
  cases base with
  | environment name => exact absurd rfl (elements name)
  | cell c => rfl
  | transient v => rfl

/-- **A variable of the environment has no elements.** -/
theorem resolveElement_environment (system : ¬base.HasElements) :
    f.FailsAt (e.spanTo 1) (r.resolveElement f e w).1 := by
  rw [resolveElement, get_bind_run, found]
  cases base with
  | environment name => exact .ofFault _
  | cell c => exact absurd nofun system
  | transient v => exact absurd nofun system

/-- **An irregular bracket is blamed** when the element is resolved. -/
theorem resolveElement_irregular (elements : base.HasElements) (irregular : r.Irregular f e.brackets k w) :
    f.FailsAt (e.spanTo k) (r.resolveElement f e w).1 := by
  rw [resolveElement_of_elements found elements]
  exact Frame.FailsAt.bind ⟨_, irregular.elementPath _⟩

/-- Once the brackets are evaluated, it is all up to the check. -/
theorem resolveElement_run (elements : base.HasElements) (yields : r.Yields f e.brackets path w w') :
    r.resolveElement f e w =
      match (w'.valueAt base).checkPath path with
      | .error error => (Target.element e).fail f error w'
      | .ok () => (.ok (base.element path), w') := by
  rw [resolveElement_of_elements found elements, bind_run_ok (yields.elementPath _), get_bind_run]
  cases (w'.valueAt base).checkPath path <;> rfl

/-- **A target that cannot be resolved is blamed up to the first bracket at which an assignment cannot go on.** -/
theorem resolveTarget_unassignable (elements : base.HasElements) (yields : r.Yields f e.brackets path w w')
    {stop : Stop} (fails : (r.resolveTarget f (.element e) w).1 = .error stop) :
    ∃ k, (w'.valueAt base).Unassignable path k ∧
      f.FailsAt (e.spanTo k) (r.resolveTarget f (.element e) w).1 := by
  have run := resolveElement_run found elements yields
  by_cases free : ∃ k, (w'.valueAt base).Unassignable path k
  · obtain ⟨k, blocked⟩ := free
    have level : 1 + k - 1 = k := by omega
    obtain ⟨fault, checked⟩ | ⟨checked, -⟩ := blocked.blamed 1
    · refine ⟨k, blocked, (Frame.FailsAt.bind ?_).located⟩
      have checked : (w'.valueAt base).checkPath path = .error (.atLevel (1 + k - 1) fault) := checked
      rw [run, checked, level]
      exact .of_fail rfl
    · have checked : (w'.valueAt base).checkPath path = .ok () := checked
      rw [checked] at run
      rw [resolveTarget_of_resolved run] at fails
      exact nomatch fails
  · have checked : (w'.valueAt base).checkPath path = .ok () :=
      (Value.assignable path _ (fun k blocked => free ⟨k, blocked⟩) 1).1
    rw [checked] at run
    rw [resolveTarget_of_resolved run] at fails
    exact nomatch fails

/-- A target that is resolved has passed the check. -/
theorem resolveTarget_element (elements : base.HasElements) (yields : r.Yields f e.brackets path w w')
    {t : Resolved} {w₂ : World} (resolves : r.resolveTarget f (.element e) w = (.ok t, w₂)) :
    (w'.valueAt base).checkPath path = .ok () ∧ t = ⟨base.element path, .element e⟩ ∧ w₂ = w' := by
  have run := resolveElement_run found elements yields
  obtain ⟨destination, w'', inner, same⟩ := of_bind_run_ok (run_ok_of_located resolves)
  cases same
  rw [run] at inner
  cases checked : (w'.valueAt base).checkPath path with
  | error error =>
    rw [checked] at inner
    exact nomatch inner
  | ok =>
    rw [checked] at inner
    cases inner
    exact ⟨rfl, rfl, rfl⟩

end Resolving

/-! ## Writing to a target -/

section Writing

variable {c : CellId} {cell : Cell} {v : Value} (held : w.store.cell? c = some cell)
  (checked : cell.value.checkPath path = .ok ())
include held

/-- **A write that passed the check is blamed up to the bracket at which it cannot go on.** -/
theorem write_blocked (checked : cell.value.checkPath path = .ok ()) (blocked : cell.value.Unassignable path k) :
    f.FailsAt (e.spanTo k) ((Resolved.mk (.element c path) (.element e)).write v f w).1 := by
  have level : 1 + k - 1 = k := by omega
  obtain ⟨fault, fails⟩ | ⟨-, fails⟩ := blocked.blamed 1
  · exact nomatch checked.symm.trans fails
  · obtain ⟨fault, failed⟩ := fails v
    have refused : cell.assignElement path v = .error (.atLevel (1 + k - 1) fault) := by
      show (cell.value.setPath path v).bind _ = _
      rw [show cell.value.setPath path v = _ from failed]
      rfl
    have run := Destination.write_element held path v
    rw [refused] at run
    rw [Resolved.write, bind_run_ok run, level]
    exact .of_fail rfl

/-- Where the path does not block it, the variable may still refuse the whole. -/
theorem write_free (free : ∀ k, ¬cell.value.Unassignable path k) :
    (∃ w', (Resolved.mk (.element c path) (.element e)).write v f w = (.ok (), w')) ∨
      f.FailsAt e.span ((Resolved.mk (.element c path) (.element e)).write v f w).1 := by
  obtain ⟨whole, rebuilt⟩ := (Value.assignable path _ free 1).2 v
  have run := Destination.write_element held path v
  rw [Cell.assignElement_of_setPath rebuilt] at run
  cases taken : cell.assign whole with
  | ok cell' =>
    rw [taken] at run
    refine .inl ⟨{ w with store := w.store.setCell c cell' }, ?_⟩
    rw [Resolved.write, bind_run_ok run]
    rfl
  | error fault =>
    rw [taken] at run
    refine .inr ?_
    rw [Resolved.write, bind_run_ok run]
    exact ⟨fault, rfl⟩

end Writing

/-! ## Removing an element -/

section Removing

variable (found : f.find? w.store e.ns e.name = some base)
include found

/-- What is deleted from the environment is blamed at the first bracket. -/
theorem deleteElement_system (system : ¬base.HasElements) :
    f.FailsAt (e.spanTo 1) (r.deleteElement e f w).1 := by
  rw [deleteElement, get_bind_run, found]
  cases base with
  | environment name => exact .ofFault _
  | cell c => exact absurd nofun system
  | transient v => exact absurd nofun system

/-- An irregular bracket is blamed when it is deleted, too. -/
theorem deleteElement_irregular (elements : base.HasElements) (irregular : r.Irregular f e.brackets k w) :
    f.FailsAt (e.spanTo k) (r.deleteElement e f w).1 := by
  rw [deleteElement, get_bind_run, found]
  cases base with
  | environment name => exact absurd rfl (elements name)
  | cell c => exact Frame.FailsAt.bind ⟨_, irregular.elementPath _⟩
  | transient v => exact Frame.FailsAt.bind ⟨_, irregular.elementPath _⟩

/-- **A removal is blamed up to the first bracket at which it cannot go on.** -/
theorem deleteElement_blocked (elements : base.HasElements) (deep : path ≠ [])
    (there : ∀ c, base = .cell c → (w'.store.cell? c).isSome) (yields : r.Yields f e.brackets path w w')
    (blocked : (w'.valueAt base).Unremovable path k) : f.FailsAt (e.spanTo k) (r.deleteElement e f w).1 := by
  have level : 1 + k - 1 = k := by omega
  obtain ⟨fault, failed⟩ := blocked.blamed 1
  rw [level] at failed
  rw [deleteElement, get_bind_run, found]
  cases base with
  | environment name => exact absurd rfl (elements name)
  | transient v =>
    dsimp only
    rw [bind_run_ok (yields.elementPath _), show v.removePath path = _ from failed]
    exact .ofFault fault
  | cell c =>
    obtain ⟨cell, held⟩ := Option.isSome_iff_exists.mp (there c rfl)
    rw [World.valueAt_cell held] at failed
    have refused : cell.removeElement path = .error (.atLevel k fault) := by
      rw [Cell.removeElement_deep cell deep, show cell.value.removePath path = _ from failed]
      rfl
    have run := removal_run held path
    rw [refused] at run
    dsimp only
    rw [bind_run_ok (yields.elementPath _), bind_run_ok run]
    exact .ofFault fault

/-- Where the path does not block it, the variable may still refuse the whole. -/
theorem deleteElement_free (elements : base.HasElements) (deep : path ≠ [])
    (there : ∀ c, base = .cell c → (w'.store.cell? c).isSome) (yields : r.Yields f e.brackets path w w')
    (free : ∀ k, ¬(w'.valueAt base).Unremovable path k) :
    (∃ w'', r.deleteElement e f w = (.ok (), w'')) ∨
      f.FailsAt (e.spanTo path.length) (r.deleteElement e f w).1 := by
  obtain ⟨whole, removed⟩ := Value.removable path _ free 1
  rw [deleteElement, get_bind_run, found]
  cases base with
  | environment name => exact absurd rfl (elements name)
  | transient v =>
    dsimp only
    rw [bind_run_ok (yields.elementPath _), show v.removePath path = _ from removed]
    exact .inl ⟨_, rfl⟩
  | cell c =>
    obtain ⟨cell, held⟩ := Option.isSome_iff_exists.mp (there c rfl)
    rw [World.valueAt_cell held] at removed
    have taken : cell.removeElement path = (cell.assign whole).mapError .whole := by
      rw [Cell.removeElement_deep cell deep, show cell.value.removePath path = _ from removed]
      rfl
    have run := removal_run held path
    rw [taken] at run
    dsimp only
    rw [bind_run_ok (yields.elementPath _)]
    cases assigned : cell.assign whole with
    | ok cell' =>
      rw [assigned] at run
      rw [bind_run_ok run]
      exact .inl ⟨_, rfl⟩
    | error fault =>
      rw [assigned] at run
      rw [bind_run_ok run]
      exact .inr (.ofFault fault)

omit found in
/-- Deletions one after the other. -/
theorem delete_append (r : Runner) (f : Frame) (ds others : List Deletion) :
    r.delete f (ds ++ others) = (do
      r.delete f ds
      r.delete f others) := by
  induction ds with
  | nil => rfl
  | cons d ds ih => cases d <;> simp [delete, ih]

end Removing

/-! ## Both operations -/

/-- **How an assignment blames its target number `n`**, counted from zero, which is written as `i`.  The assignment
runs in the world `w`, and comes to resolve the target in the world `w₁`, where its base stands for `base`. -/
structure BlamesTarget (r : Runner) (f : Frame) (targets : Targets) (values : List Expr) (n : Nat)
    (e : ElementTarget) (i : Indexing) (base : Place) (w w₁ : World) (outcome : Except Stop Unit) : Prop where
  /-- a variable of the environment has no elements, whatever is between the brackets -/
  system : ¬base.HasElements → f.FailsAt (i.upTo 1) outcome
  /-- a bracket with another number of values than one -/
  irregular : base.HasElements → ∀ k, r.Irregular f e.brackets k w₁ → f.FailsAt (i.upTo k) outcome
  /-- a target that cannot be resolved, though each bracket has one value -/
  unresolved : base.HasElements → ∀ path w₂, r.Yields f e.brackets path w₁ w₂ →
    ∀ stop, (r.resolveTarget f (.element e) w₁).1 = .error stop →
      ∃ k, (w₂.valueAt base).Unassignable path k ∧ f.FailsAt (i.upTo k) outcome
  /-- a write that the path blocks, of a base that holds what it held -/
  blocked : base.HasElements → ∀ path w₂, r.Yields f e.brackets path w₁ w₂ →
    ∀ w₃, r.ComesToWrite f targets values n w w₃ → w₃.valueAt base = w₂.valueAt base →
      ∀ k, (w₃.valueAt base).Unassignable path k → f.FailsAt (i.upTo k) outcome
  /-- a write that it does not block: the variable itself may refuse -/
  free : base.HasElements → ∀ path w₂, r.Yields f e.brackets path w₁ w₂ →
    ∀ w₃, r.ComesToWrite f targets values n w w₃ → w₃.valueAt base = w₂.valueAt base →
      (∀ k, ¬(w₃.valueAt base).Unassignable path k) →
        (∃ w₄, r.ComesToWrite f targets values (n + 1) w w₄) ∨ f.FailsAt i.span outcome

/-- **How `del` blames an element**, which is written as `i`.  It comes to the element in the world `w₁`, where the
base stands for `base`; `goesOn` says that it comes past it. -/
structure BlamesDeletion (r : Runner) (f : Frame) (e : ElementTarget) (i : Indexing) (base : Place) (w₁ : World)
    (goesOn : Prop) (outcome : Except Stop Unit) : Prop where
  /-- a variable of the environment has no elements, whatever is between the brackets -/
  system : ¬base.HasElements → f.FailsAt (i.upTo 1) outcome
  /-- a bracket with another number of values than one -/
  irregular : base.HasElements → ∀ k, r.Irregular f e.brackets k w₁ → f.FailsAt (i.upTo k) outcome
  /-- a removal that the path blocks -/
  blocked : base.HasElements → ∀ path w₂, r.Yields f e.brackets path w₁ w₂ →
    ∀ k, (w₂.valueAt base).Unremovable path k → f.FailsAt (i.upTo k) outcome
  /-- a removal that it does not block: the variable itself may refuse -/
  free : base.HasElements → ∀ path w₂, r.Yields f e.brackets path w₁ w₂ →
    (∀ k, ¬(w₂.valueAt base).Unremovable path k) → goesOn ∨ f.FailsAt (i.upTo path.length) outcome

section Blaming

variable {i : Indexing} {targets : Targets} {values : List Expr} {span : Span} {w₁ : World}

section Assigned

variable {before after : List Target} {rs : List Resolved} (hr : r.Contained) (whole : w.store.Whole)
  (all : targets.all = before ++ .element e :: after) (first : r.resolveEach f before w = (.ok rs, w₁))
  (found : f.find? w₁.store e.ns e.name = some base)
include hr whole all first found

/-- **An element that an assignment comes to write is one of a variable**, which is still there, and which passed
the check. -/
theorem ComesToWrite.element {w₂ w₃ : World} (elements : base.HasElements) (deep : e.brackets ≠ [])
    (yields : r.Yields f e.brackets path w₁ w₂) (comes : r.ComesToWrite f targets values before.length w w₃) :
    ∃ c cell v, base = .cell c ∧ w₃.store.cell? c = some cell ∧ (w₂.valueAt base).checkPath path = .ok () ∧
      (∀ stop, ((Resolved.mk (.element c path) (.element e)).write v f w₃).1 = .error stop →
        (r.assign targets values f w).1 = .error stop) ∧
      ∀ w₄, (Resolved.mk (.element c path) (.element e)).write v f w₃ = (.ok (), w₄) →
        r.ComesToWrite f targets values (before.length + 1) w w₄ := by
  obtain ⟨t, v, w₂', resolves, later, stops, goesOn⟩ := comes.target all first hr
  obtain ⟨checked, rfl, rfl⟩ := resolveTarget_element found elements yields resolves
  cases base with
  | environment name => exact absurd rfl (elements name)
  | transient v =>
    -- a command of the system has no elements
    obtain ⟨command, rfl⟩ := Frame.transient_of_find? found
    obtain ⟨key, rest, rfl⟩ : ∃ key rest, path = key :: rest :=
      List.exists_cons_of_ne_nil (List.ne_nil_of_length_pos (yields.length_eq ▸ List.length_pos_iff.mpr deep))
    exact nomatch checked
  | cell c =>
    have begun := (stays_resolveEach hr f before).evolves first
    have resolving := (stays_resolveTarget hr f (.element e)).evolves resolves
    obtain ⟨old, held⟩ := (begun.whole whole).find? found
    obtain ⟨v', held⟩ := (resolving.trans later).keepsCells c old held
    exact ⟨c, _, v, rfl, held, checked, stops, goesOn⟩

/-- **An assignment blames the right bracket** of the right target. -/
theorem blamesTarget (written : e.WrittenAs i) :
    r.BlamesTarget f targets values before.length e i base w w₁
      (r.execute (.assign targets values span) f w).1 := by
  have fails {span' : Span} (h : f.FailsAt span' (r.assign targets values f w).1) :
      f.FailsAt span' (r.execute (.assign targets values span) f w).1 := h.located
  have unresolved {span' : Span} (h : f.FailsAt span' (r.resolveTarget f (.element e) w₁).1) :
      f.FailsAt span' (r.execute (.assign targets values span) f w).1 := by
    obtain ⟨fault, h⟩ := h
    exact fails ⟨fault, assign_unresolved all first h⟩
  have one : 1 ≤ e.brackets.length := List.length_pos_iff.mpr written.deep
  refine ⟨fun system => ?_, fun elements k irregular => ?_, fun elements path w₂ yields stop stops => ?_,
    fun elements path w₂ yields w₃ comes same k blocked => ?_,
    fun elements path w₂ yields w₃ comes same free => ?_⟩
  · rw [← written.spanTo (Nat.le_refl 1) one]
    exact unresolved (resolveElement_environment found system).bind.located
  · rw [← written.spanTo irregular.bounds.1 irregular.bounds.2]
    exact unresolved (resolveElement_irregular found elements irregular).bind.located
  · obtain ⟨k, blocked, failed⟩ := resolveTarget_unassignable found elements yields stops
    refine ⟨k, blocked, ?_⟩
    rw [← written.spanTo blocked.bounds.1 (yields.length_eq ▸ blocked.bounds.2)]
    exact unresolved failed
  · obtain ⟨c, cell, v, rfl, held, checked, stops, -⟩ :=
      comes.element hr whole all first found elements written.deep yields
    rw [← same, World.valueAt_cell held] at checked
    rw [World.valueAt_cell held] at blocked
    rw [← written.spanTo blocked.bounds.1 (yields.length_eq ▸ blocked.bounds.2)]
    obtain ⟨fault, failed⟩ := write_blocked held checked blocked
    exact fails ⟨fault, stops _ failed⟩
  · obtain ⟨c, cell, v, rfl, held, -, stops, goesOn⟩ :=
      comes.element hr whole all first found elements written.deep yields
    rw [World.valueAt_cell held] at free
    rw [← written.span]
    refine (write_free held free).imp (fun ⟨w₄, writes⟩ => ⟨w₄, goesOn w₄ writes⟩) fun ⟨fault, failed⟩ => ?_
    exact fails ⟨fault, stops _ failed⟩

end Assigned

/-- **So does a deletion.** -/
theorem blamesDeletion (hr : r.Contained) (whole : w.store.Whole) (written : e.WrittenAs i)
    {before after : List Deletion} (first : r.delete f before w = (.ok (), w₁))
    (found : f.find? w₁.store e.ns e.name = some base) :
    r.BlamesDeletion f e i base w₁ (∃ w₂, r.delete f (before ++ [.element e]) w = (.ok (), w₂))
      (r.execute (.delete (before ++ .element e :: after) span) f w).1 := by
  have fails {span' : Span} (h : f.FailsAt span' (r.deleteElement e f w₁).1) :
      f.FailsAt span' (r.execute (.delete (before ++ .element e :: after) span) f w).1 := by
    have rest : f.FailsAt span' (r.delete f (before ++ .element e :: after) w).1 := by
      rw [delete_append, bind_run_ok first]
      exact h.bind
    exact rest.located
  have there {path : List Value} {w₂ : World} (yields : r.Yields f e.brackets path w₁ w₂) (c : CellId)
      (here : base = .cell c) : (w₂.store.cell? c).isSome := by
    have begun := (stays_delete hr f before).evolves first
    have evaluating := (stays_elementPath (fun x => hr.expr x f) .multipleIndices e).evolves
      (yields.elementPath _)
    rw [here] at found
    obtain ⟨old, held⟩ := (begun.whole whole).find? found
    obtain ⟨v, held⟩ := evaluating.keepsCells c old held
    rw [held]
    rfl
  have one : 1 ≤ e.brackets.length := List.length_pos_iff.mpr written.deep
  have deep {path : List Value} {w₂ : World} (yields : r.Yields f e.brackets path w₁ w₂) : path ≠ [] :=
    List.ne_nil_of_length_pos (yields.length_eq ▸ one)
  refine ⟨fun system => ?_, fun elements k irregular => ?_, fun elements path w₂ yields k blocked => ?_,
    fun elements path w₂ yields free => ?_⟩
  · rw [← written.spanTo (Nat.le_refl 1) one]
    exact fails (deleteElement_system found system)
  · rw [← written.spanTo irregular.bounds.1 irregular.bounds.2]
    exact fails (deleteElement_irregular found elements irregular)
  · rw [← written.spanTo blocked.bounds.1 (yields.length_eq ▸ blocked.bounds.2)]
    exact fails (deleteElement_blocked found elements (deep yields) (there yields) yields blocked)
  · rw [← written.spanTo (yields.length_eq ▸ one) (Nat.le_of_eq yields.length_eq)]
    refine (deleteElement_free found elements (deep yields) (there yields) yields free).imp ?_ fails
    rintro ⟨w₃, removed⟩
    refine ⟨w₃, ?_⟩
    rw [delete_append, bind_run_ok first]
    show (r.deleteElement e f >>= fun _ => r.delete f []) w₁ = _
    rw [bind_run_ok removed]
    rfl

end Blaming

end Runner

namespace Session

/-- A global variable of the host is found by the next unit. -/
theorem find?_bindGlobal {s : Session} (known : s.globals.index < s.world.store.scopes.size) (name : String)
    (v : Value) (source : Source) (ports : Ports) (upScope : ScopeId) :
    ((s.bindGlobal name v).frame source ports upScope).find? (s.bindGlobal name v).entered.store "" name =
      some (.cell ⟨s.world.store.cells.size⟩) := by
  have kept : (s.bindGlobal name v).entered.store.find? s.globals name = some ⟨s.world.store.cells.size⟩ := by
    have here : s.globals.index < (s.bindGlobal name v).world.store.scopes.size := by
      show _ < (s.world.store.bindNew s.globals name (.plain v)).scopes.size
      rw [Store.size_bindNew]
      exact known
    show Table.find? (((s.bindGlobal name v).world.store.newScope []).2.scope s.globals) name = _
    rw [Store.scope_newScope_of_lt _ _ here]
    exact Store.find?_bindNew known name (.plain v)
  unfold Frame.find?
  unfold Frame.findPlain?
  rw [show ((s.bindGlobal name v).frame source ports upScope).localScope = s.globals from rfl, kept]
  rfl

/-- It holds what the host bound. -/
theorem valueAt_bindGlobal (s : Session) (name : String) (v : Value) :
    (s.bindGlobal name v).entered.valueAt (.cell ⟨s.world.store.cells.size⟩) = v :=
  s.world.store.read_bindNew s.globals name (.plain v)

/-- **Element errors blame the right bracket.**  Take any moment of a session, and any element target of an
assignment or of `del` that is compiled, whatever the left side looks like.  It is an indexing of the syntax, and
wherever the run comes to it and its base stands for a variable, the failures of the element are those of
`BlamesTarget` and `BlamesDeletion`: up to the first bracket that has not one value, or else up to the first at
which the walk cannot go on. -/
theorem element_failures_blame {library : Library} {environment : Environment} {files : FileTree}
    {processId : String} {f : Frame} {w : World}
    (moment : (start library environment files processId).Moment f w) (fuel : Nat) :
    let r := Runner.ofFuel fuel
    (∀ (a : Assignment) (table table' : ScopeTable) (targets : Targets) (values : List Expr) (span : Span),
      a.compile table = .ok (.assign targets values span, table') →
        ∀ before e after, targets.all = before ++ .element e :: after →
          ∃ i ∈ a.left.written, e.WrittenAs i ∧
            ∀ rs w₁ base, r.resolveEach f before w = (.ok rs, w₁) → f.find? w₁.store e.ns e.name = some base →
              r.BlamesTarget f targets values before.length e i base w w₁
                (r.execute (.assign targets values span) f w).1) ∧
    (∀ (args : List Compound) (table table' : ScopeTable) (before after : List Deletion) (e : ElementTarget)
      (span : Span),
      SpecialForm.deletions (arguments args) table = .ok (before ++ .element e :: after, table') →
        ∃ i ∈ args.flatMap Compound.indexings, e.WrittenAs i ∧
          ∀ w₁ base, r.delete f before w = (.ok (), w₁) → f.find? w₁.store e.ns e.name = some base →
            r.BlamesDeletion f e i base w₁ (∃ w₂, r.delete f (before ++ [.element e]) w = (.ok (), w₂))
              (r.execute (.delete (before ++ .element e :: after) span) f w).1) := by
  intro r
  have hr := Runner.ofFuel_contained fuel
  refine ⟨fun a table table' targets values span compiled before e after all => ?_,
    fun args table table' before after e span compiled => ?_⟩
  · have inside : .element e ∈ targets.all := by
      rw [all]
      exact List.mem_append_right _ List.mem_cons_self
    obtain ⟨i, hi, written⟩ := Compile.assignment_written compiled inside
    exact ⟨i, hi, written, fun rs w₁ base first found =>
      Runner.blamesTarget hr moment.whole all first found written⟩
  · obtain ⟨i, hi, written⟩ :=
      Compile.deletions_written compiled (List.mem_append_right _ List.mem_cons_self)
    exact ⟨i, hi, written, fun w₁ base first found =>
      Runner.blamesDeletion hr moment.whole written first found⟩

/-- In `x[0][k] = 1` with `x` a list of one list, the write fails, and the whole target is blamed: its second bracket
denotes no slot. -/
theorem element_failures_blame_second_bracket :
    let s := start ⟨none, []⟩ ⟨[]⟩ default "1"
    let t := s.bindGlobal "x" (.list [.list [.text "a"]])
    let f := t.frame (.interactive "x[0][k] = 1") .standard ⟨t.world.store.scopes.size⟩
    let word (text : String) (start : Nat) : Compound :=
      ⟨[⟨.bareword text ⟨start, start + 1⟩, [], ⟨start, start + 1⟩⟩], ⟨start, start + 1⟩⟩
    let i : Indexing := ⟨.bareword "x" ⟨0, 1⟩, [⟨[word "0" 2], ⟨1, 4⟩⟩, ⟨[word "k" 5], ⟨4, 7⟩⟩], ⟨0, 7⟩⟩
    let literal (text : String) (start : Nat) : Expr := .literal text ⟨start, start + 1⟩
    let e : ElementTarget :=
      ⟨"", "x", [⟨[literal "0" 2], ⟨1, 4⟩⟩, ⟨[literal "k" 5], ⟨4, 7⟩⟩], ⟨0, 7⟩, [1, 4, 7]⟩
    let op : Operation := .assign ⟨[.element e], none, ⟨0, 7⟩⟩ [literal "1" 10] ⟨0, 11⟩
    (∃ table, Assignment.compile ⟨i, [word "1" 10], ⟨0, 11⟩⟩ ⟨[["x"]], []⟩ = .ok (op, table)) ∧
      f.FailsAt ⟨0, 7⟩ ((Runner.ofFuel 5).execute op f t.entered).1 := by
  intro s t f word i literal e op
  have compiled : Assignment.compile ⟨i, [word "1" 10], ⟨0, 11⟩⟩ ⟨[["x"]], []⟩ = .ok (op, ⟨[["x"]], []⟩) := by
    cbv
  have moment : s.Moment f t.entered := .unit (.global .now "x" (.list [.list [.text "a"]])) _ _
  obtain ⟨j, hj, written, blames⟩ :=
    (element_failures_blame moment 5).1 _ _ _ _ _ _ compiled [] e [] rfl
  cases List.mem_singleton.mp hj
  have known : s.globals.index < s.world.store.scopes.size := by decide +kernel
  have found : f.find? t.entered.store e.ns e.name = some (.cell ⟨s.world.store.cells.size⟩) :=
    find?_bindGlobal known ..
  have held : t.entered.valueAt (.cell ⟨s.world.store.cells.size⟩) = .list [.list [.text "a"]] :=
    s.valueAt_bindGlobal ..
  have checked : (Value.list [.list [.text "a"]]).checkPath [.text "0", .text "k"] = .ok () := rfl
  have blocked : (Value.list [.list [.text "a"]]).Unassignable [.text "0", .text "k"] 2 :=
    .deeper rfl rfl (.slotless (by decide +kernel))
  have yields : (Runner.ofFuel 5).Yields f e.brackets [.text "0", .text "k"] t.entered t.entered :=
    .cons rfl (.cons rfl .nil)
  have first := Runner.resolveElement_run found (fun _ same => by cases same) yields
  rw [held, checked] at first
  let resolved : ResolvedTargets :=
    ⟨[⟨.element ⟨s.world.store.cells.size⟩ [.text "0", .text "k"], .element e⟩], none⟩
  have resolves : (Runner.ofFuel 5).resolveTargets f ⟨[.element e], none, ⟨0, 7⟩⟩ t.entered =
      (.ok resolved, t.entered) := by
    show (((Runner.ofFuel 5).resolveTarget f (.element e) >>= fun first => _) >>= fun fixed => _) t.entered = _
    rw [bind_assoc, bind_run_ok (Runner.resolveTarget_of_resolved first)]
    rfl
  have comes : (Runner.ofFuel 5).ComesToWrite f ⟨[.element e], none, ⟨0, 7⟩⟩ [literal "1" 10] 0 t.entered
      t.entered := ⟨resolved, [.text "1"], _, _, resolves, rfl, ⟨Nat.le_refl 1, fun _ => rfl⟩, rfl⟩
  refine ⟨⟨_, compiled⟩, (blames [] t.entered _ rfl found).blocked (fun _ same => by cases same) _ _ yields _ comes rfl 2 ?_⟩
  rw [held]
  exact blocked

/-- The exception that a unit failed with. -/
def exceptionOf (code : String) : Option Exception :=
  match (bare.evaluate 60 (.interactive code) .standard).1 with
  | .failed (.exception e) => some e
  | _ => none

/-- A base that the brackets of a later target change is blamed where the write gets to: the text `foo` is no list or
map, so bracket one is in the way, and `[21, 25)` is the text up to it.  And no bracket of a variable of the
environment is looked at but the first, though here it is the second that has two values, or that is the first at
which a removal cannot go on. -/
theorem element_blamed_elsewhere :
    let changing := "x = [[a]]; y = [b]; \x7bx[0][0],y[(x = foo; put 0)]\x7d = 1 2"
    let assigning := "E:x[0][(put 1 2)] = 3"
    let removing := "E:x = abc; del E:x[0][0]"
    exceptionOf changing =
        some ⟨.notAssignable "string", some ⟨.interactive changing, ⟨21, 28⟩, "top"⟩⟩ ∧
      (bare.after changing).globalValues.map (fun (name, v) => (name, v.repr)) = [("x", "foo"), ("y", "[b]")] ∧
      (Value.text "foo").Unassignable [.text "0", .text "0"] 1 ∧
      exceptionOf assigning =
        some ⟨.notAssignable "string", some ⟨.interactive assigning, ⟨0, 6⟩, "top"⟩⟩ ∧
      exceptionOf removing = some ⟨.notRemovable, some ⟨.interactive removing, ⟨15, 21⟩, "top"⟩⟩ ∧
      (Value.text "abc").Unremovable [.text "0", .text "0"] 2 := by
  intro changing assigning removing
  exact ⟨by decide +kernel, by decide +kernel, .flat rfl, by decide +kernel, by decide +kernel,
    .deeper (by simp) rfl (.fixed nofun)⟩

end Session

end ValueShell
