/-
  Places that do not overlap.

  Two destinations overlap if what is assigned to one shows in the other: they are the same variable of the
  environment, or they are in the same variable, where the path of one does not leave that of the other.  A variable
  as a whole is the element at the empty path, so both kinds of target are treated alike.

  Whether two elements overlap depends on what their variable holds, since `-1` and `3` may or may not be one item.
  But an assignment to a third element that overlaps neither changes no answer (`Leaves.of_setPathFrom`): the
  containers on the way to the two keep their slots.  So after a whole row of assignments the question can be asked
  about what the variable holds in the end (`reads_writeAll`).
-/
import ValueShell.Proofs.AssignmentRuns
import ValueShell.Proofs.ElementAssignment
import ValueShell.Proofs.FixedBindings

namespace ValueShell

open Eval

theorem Eval.tryCell_ok {ε : Type} {c : CellId} {cell : Cell} {change : Cell → Except ε Cell} {w w' : World}
    (held : w.store.cell? c = some cell) (run : tryCell c change w = (.ok (.ok ()), w')) :
    ∃ cell', change cell = .ok cell' ∧ w' = { w with store := w.store.setCell c cell' } := by
  rw [tryCell_run, Store.changeCell, held] at run
  dsimp only at run
  cases changed : change cell with
  | error e =>
    rw [changed] at run
    cases run
  | ok cell' =>
    rw [changed] at run
    cases run
    exact ⟨cell', rfl, rfl⟩

theorem Eval.tryEnvironment_ok {ε : Type} {change : Environment → Except ε Environment} {w w' : World}
    (run : tryEnvironment change w = (.ok (.ok ()), w')) :
    ∃ environment, change w.environment = .ok environment ∧ w' = { w with environment } := by
  rw [tryEnvironment, get_bind_run] at run
  cases changed : change w.environment with
  | error e =>
    rw [changed] at run
    cases run
  | ok environment =>
    rw [changed] at run
    cases run
    exact ⟨environment, rfl, rfl⟩

theorem Store.read_setCell_of_ne {s : Store} {c other : CellId} {cell : Cell} (differ : c ≠ other) :
    (s.setCell c cell).read other = s.read other := by
  rw [Store.read, Store.cell?_setCell, if_neg differ, Store.read]

/-! ## Paths that leave one another -/

namespace Value

/-- **An assignment to an element does not bring paths together.**  Let `p` leave the path `q` that is assigned to.
If `p` leaves some path after the assignment, then it left it before. -/
theorem Leaves.of_setPathFrom {new : Value} : ∀ (q : List Value) {p other : List Value} {level : Nat}
    {v whole : Value}, setPathFrom level v new q = .ok whole → whole.Leaves q p → whole.Leaves other p →
      v.Leaves other p
  | [], _, _, _, _, _, _, aside, _ => nomatch aside
  | key :: rest, _, _, level, v, whole, h, aside, leaves => by
    -- whatever is put in its place, an element is replaced in the container at hand
    obtain ⟨child', up⟩ : ∃ child', v.assoc key child' = .ok whole := by
      cases rest with
      | nil => exact ⟨new, blame_ok h⟩
      | cons second rest =>
        obtain ⟨_, child', -, -, up⟩ := down_ok h
        exact ⟨child', up⟩
    have slots := slot?_assoc up
    cases leaves with
    | apart differ => exact .apart (by rwa [slots, slots] at differ)
    | @deeper _ found otherKey index otherRest p same down leaves =>
      rw [slots, slots] at same
      cases aside with
      | apart differ =>
        rw [slots, slots, same] at differ
        exact .deeper same ((index_assoc_of_ne up differ).symm.trans down) leaves
      | @deeper _ child _ _ _ _ same' down' aside =>
        rw [slots, slots] at same'
        cases rest with
        | nil => exact nomatch aside
        | cons second rest =>
          obtain ⟨old, child'', below, inner, up⟩ := down_ok h
          have there : whole.index key = .ok child'' := index_assoc up rfl
          have here : whole.index otherKey = .ok child'' := index_assoc up (same.symm.trans same')
          cases there.symm.trans down'
          cases here.symm.trans down
          have container : v.isContainer = true := by cases replaced_of_assoc up <;> rfl
          exact .deeper same (index_congr below container (same.symm.trans same'))
            (of_setPathFrom (second :: rest) inner aside leaves)

end Value

/-! ## Destinations -/

namespace Destination

/-- The variable that a destination is in, and the path there. -/
def inCell? : Destination → Option (CellId × List Value)
  | .place (.cell c) => some (c, [])
  | .element c path => some (c, path)
  | .place _ => none

/-- **What is assigned to one of the destinations shows in the other.** -/
def Overlaps (s : Store) (d d' : Destination) : Prop :=
  (∃ name, d = .place (.environment name) ∧ d' = .place (.environment name)) ∨
    ∃ c p q, d.inCell? = some (c, p) ∧ d'.inCell? = some (c, q) ∧ ¬(s.read c).Leaves p q

/-- A destination that keeps what is assigned to it. -/
def Keeps (d : Destination) : Prop := ∀ v, d ≠ .place (.transient v)

/-- A variable of the environment has a name that one can have. -/
def Named (d : Destination) : Prop :=
  ∀ name, d = .place (.environment name) → Environment.checkName name = .ok ()

/-- What an assigned value reads as: a variable of the environment holds a text. -/
def shown : Destination → Value → Value
  | .place (.environment _), v => .text v.display
  | _, v => v

/-- What is read where a destination is. -/
def read (w : World) : Destination → Except ElementError Value
  | .place p => .ok (w.valueAt p)
  | .element c path => (w.store.read c).getPath path

/-- A destination in a variable that there is. -/
def Known (s : Store) (d : Destination) : Prop := ∀ c path, d.inCell? = some (c, path) → (s.cell? c).isSome

/-- Variables are not taken away. -/
theorem Known.later {d : Destination} {e : Ending} {home : Option ScopeId} {loading : List String} {w w' : World}
    (known : d.Known w.store) (run : Evolves e home loading w w') : d.Known w'.store := by
  intro c path inside
  obtain ⟨old, held⟩ := Option.isSome_iff_exists.mp (known c path inside)
  obtain ⟨v, held⟩ := run.keepsCells c old held
  exact Option.isSome_of_eq_some held

theorem leaves_of_aside {s : Store} {d d' : Destination} {c : CellId} {p q : List Value}
    (here : d.inCell? = some (c, p)) (there : d'.inCell? = some (c, q)) (aside : ¬d.Overlaps s d') :
    (s.read c).Leaves p q := by
  by_cases leaves : (s.read c).Leaves p q
  · exact leaves
  · exact absurd (.inr ⟨c, p, q, here, there, leaves⟩) aside

theorem read_inCell {d : Destination} {c : CellId} {path : List Value} (inside : d.inCell? = some (c, path))
    (w : World) : d.read w = (w.store.read c).getPath path := by
  cases d with
  | element c path =>
    cases inside
    rfl
  | place p =>
    cases p with
    | cell c =>
      cases inside
      rfl
    | transient v => exact nomatch inside
    | environment name => exact nomatch inside

theorem shown_inCell {d : Destination} {c : CellId} {path : List Value} (inside : d.inCell? = some (c, path))
    (v : Value) : d.shown v = v := by
  cases d with
  | element c path => rfl
  | place p =>
    cases p with
    | environment name => exact nomatch inside
    | _ => rfl

/-- **What an assignment that succeeds does.** -/
inductive Wrote (v : Value) (w : World) : Destination → World → Prop
  | inCell {d : Destination} {c : CellId} {path : List Value} {cell : Cell} {whole : Value}
      (inside : d.inCell? = some (c, path)) (held : w.store.cell? c = some cell)
      (rebuilt : cell.value.setPath path v = .ok whole) :
      Wrote v w d { w with store := w.store.setCell c { cell with value := whole } }
  | environment {name : String} {environment : Environment} (set : w.environment.set name v = .ok environment) :
      Wrote v w (.place (.environment name)) { w with environment }
  | transient {u : Value} : Wrote v w (.place (.transient u)) w

theorem writePlace_of_write {p : Place} {v : Value} {w w' : World}
    (run : (Destination.place p).write v w = (.ok (.ok ()), w')) : writePlace p v w = (.ok (.ok ()), w') := by
  obtain ⟨res, w₁, written, mapped⟩ := of_bind_run_ok run
  cases res with
  | error fault => exact nomatch mapped
  | ok u =>
    cases mapped
    exact written

/-- A write that succeeds changes nothing else. -/
theorem wrote_of_write {d : Destination} {v : Value} {w w' : World} (known : d.Known w.store)
    (run : d.write v w = (.ok (.ok ()), w')) : d.Wrote v w w' := by
  cases d with
  | element c path =>
    obtain ⟨cell, held⟩ := Option.isSome_iff_exists.mp (known c path rfl)
    obtain ⟨cell', assigned, rfl⟩ := write_element_ok held run
    obtain ⟨whole, rebuilt, -, rfl⟩ := Cell.assignElement_ok assigned
    exact .inCell rfl held rebuilt
  | place p =>
    replace run := writePlace_of_write run
    cases p with
    | transient u =>
      cases run
      exact .transient
    | cell c =>
      obtain ⟨cell, held⟩ := Option.isSome_iff_exists.mp (known c [] rfl)
      have run : tryCell c (fun cell => cell.assign v) w = _ := run
      obtain ⟨cell', assigned, rfl⟩ := tryCell_ok held run
      rw [Cell.assign_eq assigned]
      exact .inCell rfl held rfl
    | environment name =>
      have run : tryEnvironment (fun e => e.set name v) w = _ := run
      obtain ⟨environment, set, rfl⟩ := tryEnvironment_ok run
      exact .environment set

section Wrote

variable {d d' : Destination} {v : Value} {w w' : World}

/-- **The destination reads as what was assigned to it.** -/
theorem Wrote.read_self (h : d.Wrote v w w') (keeps : d.Keeps) : d.read w' = .ok (d.shown v) := by
  cases h with
  | @inCell _ c path cell whole inside held rebuilt =>
    rw [read_inCell inside, shown_inCell inside, Store.read_setCell held]
    exact Value.getPathFrom_setPathFrom path rebuilt
  | environment set => exact congrArg _ (Environment.read_set set)
  | transient => exact absurd rfl (keeps _)

/-- A variable of the environment that is written to has a proper name. -/
theorem Wrote.named (h : d.Wrote v w w') : d.Named := by
  intro name here
  cases h with
  | inCell inside =>
    rw [here] at inside
    exact nomatch inside
  | environment set =>
    cases here
    exact (Environment.set_ok set).1
  | transient => exact nomatch here

/-- Paths that leave one another afterwards did so before, unless the write is where they lead. -/
theorem Wrote.leaves {c : CellId} {p q : List Value} (h : d.Wrote v w w') (inside : d'.inCell? = some (c, q))
    (aside : ¬d.Overlaps w'.store d') (leaves : (w'.store.read c).Leaves p q) : (w.store.read c).Leaves p q := by
  cases h with
  | environment | transient => exact leaves
  | @inCell _ c₀ path cell whole there held rebuilt =>
    by_cases same : c₀ = c
    · subst same
      have apart := leaves_of_aside there inside aside
      rw [Store.read_setCell held] at apart leaves
      rw [Store.read, held]
      exact .of_setPathFrom path rebuilt apart leaves
    · rwa [Store.read_setCell_of_ne same] at leaves

/-- **A write brings no destinations together**, unless it is where one of them is. -/
theorem Wrote.overlaps {d'' : Destination} (h : d.Wrote v w w') (aside : ¬d.Overlaps w'.store d')
    (overlaps : d''.Overlaps w.store d') : d''.Overlaps w'.store d' := by
  refine overlaps.imp id fun ⟨c, p, q, here, inside, meet⟩ => ⟨c, p, q, here, inside, fun leaves => ?_⟩
  exact meet (h.leaves inside aside leaves)

/-- **What does not overlap reads as before.** -/
theorem Wrote.read_other (h : d.Wrote v w w') (aside : ¬d.Overlaps w'.store d') (named : d'.Named) :
    d'.read w' = d'.read w := by
  cases inside : d'.inCell? with
  | some there =>
    obtain ⟨c, q⟩ := there
    rw [read_inCell inside, read_inCell inside]
    cases h with
    | environment | transient => rfl
    | @inCell _ c₀ path cell whole here held rebuilt =>
      by_cases same : c₀ = c
      · subst same
        have leaves := leaves_of_aside here inside aside
        have before := Wrote.leaves (.inCell here held rebuilt) inside aside leaves
        rw [Store.read_setCell held]
        rw [Store.read, held] at before ⊢
        exact Value.getPathFrom_setPathFrom_of_leaves before rebuilt 1
      · rw [Store.read_setCell_of_ne same]
  | none =>
    cases d' with
    | element => cases inside
    | place p =>
      cases p with
      | cell => cases inside
      | transient => rfl
      | environment other =>
        cases h with
        | inCell | transient => rfl
        | @environment name environment set =>
          have differ : name ≠ other := fun same => aside (.inl ⟨name, rfl, same ▸ rfl⟩)
          exact congrArg _ (Environment.read_set_of_ne (named other rfl) differ set)

end Wrote

end Destination

/-! ## A row of writes -/

namespace Resolved

theorem write_ok {t : Resolved} {v : Value} {f : Frame} {w w' : World} (run : t.write v f w = (.ok (), w')) :
    t.destination.write v w = (.ok (.ok ()), w') := by
  obtain ⟨res, w₁, written, run⟩ := of_bind_run_ok run
  cases res with
  | error e => exact nomatch run
  | ok u =>
    cases run
    exact written

/-- **A row of writes that overlap a destination nowhere** leaves what is read there as it was, and brings nothing to
it. -/
theorem reads_writeAll {f : Frame} {d : Destination} (named : d.Named) {w' : World} :
    ∀ (pairs : List (Resolved × Value)) {w : World}, writeAll f pairs w = (.ok (), w') →
      (∀ p ∈ pairs, p.1.destination.Known w.store) → (∀ p ∈ pairs, ¬p.1.destination.Overlaps w'.store d) →
      d.read w' = d.read w ∧ ∀ other : Destination, other.Overlaps w.store d → other.Overlaps w'.store d
  | [], _, run, _, _ => by
    cases run
    exact ⟨rfl, fun _ => id⟩
  | p :: pairs, w, run, known, aside => by
    obtain ⟨⟨⟩, w₁, first, later⟩ := of_bind_run_ok run
    have wrote := Destination.wrote_of_write (known p List.mem_cons_self) (write_ok first)
    have writing : Evolves .settled (some f.localScope) f.loading w w₁ := (Runner.stays_write p.1 p.2 f).evolves first
    obtain ⟨reads, overlaps⟩ := reads_writeAll named pairs later
      (fun q hq => (known q (List.mem_cons_of_mem p hq)).later writing)
      fun q hq => aside q (List.mem_cons_of_mem p hq)
    have apart : ¬p.1.destination.Overlaps w₁.store d := fun h => aside p List.mem_cons_self (overlaps _ h)
    exact ⟨reads.trans (wrote.read_other apart named), fun other h => overlaps other (wrote.overlaps apart h)⟩

/-- **What a write puts in its place is there in the end**, unless a later one overlaps it. -/
theorem kept_writeAll {f : Frame} {t : Resolved} {v : Value} {earlier later : List (Resolved × Value)}
    {w w' : World} (run : writeAll f (earlier ++ (t, v) :: later) w = (.ok (), w'))
    (known : ∀ p ∈ earlier ++ (t, v) :: later, p.1.destination.Known w.store) (keeps : t.destination.Keeps)
    (aside : ∀ p ∈ later, ¬p.1.destination.Overlaps w'.store t.destination) :
    t.destination.read w' = .ok (t.destination.shown v) := by
  rw [writeAll_append] at run
  obtain ⟨_, w₁, before, run⟩ := of_bind_run_ok run
  obtain ⟨⟨⟩, w₂, here, after⟩ := of_bind_run_ok run
  have begun : Evolves .settled (some f.localScope) f.loading w w₁ := (stays_writeAll f earlier).evolves before
  have writing : Evolves .settled (some f.localScope) f.loading w₁ w₂ := (Runner.stays_write t v f).evolves here
  have wrote := Destination.wrote_of_write
    ((known _ (List.mem_append_right _ List.mem_cons_self)).later begun) (write_ok here)
  have rest (p : Resolved × Value) (hp : p ∈ later) : p.1.destination.Known w₂.store :=
    (known p (List.mem_append_right _ (List.mem_cons_of_mem _ hp))).later (begun.trans writing)
  rw [(reads_writeAll wrote.named later after rest aside).1]
  exact wrote.read_self keeps

end Resolved

end ValueShell
