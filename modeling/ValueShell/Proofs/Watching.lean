/-
  Runs that are cut off in the middle.

  What is true of the worlds BETWEEN two units can fail in the middle of one.  To speak of the middle, a run is
  watched: before every operation, every expression, every call and every round of a loop a watcher looks at
  the store, and may end the run right there.  Watchers that end the run at different moments show all the
  stores that it passes through.  A watcher that never ends it makes no difference.
-/
import ValueShell.Proofs.AlikeEvaluation

namespace ValueShell

open Eval

namespace Eval

/-- Goes on unless the watcher ends it here. -/
def unlessStopped {α : Type} (stop : Store → Bool) (x : Eval α) : Eval α := do
  if stop (← get).store then throw .outOfFuel else x

variable {α β : Type} {stop stop' : Store → Bool}

theorem stays_unlessStopped {home : Option ScopeId} {loading : List String} {x : Eval α}
    (h : Stays home loading x) : Stays home loading (unlessStopped stop x) := by
  refine stays_get fun w => ?_
  split
  · exact stays_cut rfl
  · exact h

theorem agree_unlessStopped {ρ : Matching} {R : α → β → Prop} {x : Eval α} {y : Eval β}
    (same : ∀ s s', s.Alike ρ s' → stop s = stop' s') (h : Agree ρ R x y) :
    Agree ρ R (unlessStopped stop x) (unlessStopped stop' y) := by
  refine agree_get fun w w' hw => ?_
  rw [same _ _ hw.store]
  split
  · exact agree_throw .outOfFuel
  · exact h

end Eval

namespace Runner

/-- **The evaluator with a watcher**, who may end the run at any moment. -/
def watched (stop : Store → Bool) : Nat → Runner
  | 0 => exhausted
  | fuel + 1 =>
    { operation := fun op f => unlessStopped stop ((watched stop fuel).execute op f)
      expr := fun e f => unlessStopped stop ((watched stop fuel).evaluate e f)
      call := fun callable args mode f =>
        unlessStopped stop ((watched stop fuel).callFunction callable args mode f)
      loop := fun step => unlessStopped stop do
        if ← step then (watched stop fuel).loop step }

/-- Who never ends the run makes no difference. -/
theorem watched_never (fuel : Nat) : watched (fun _ => false) fuel = ofFuel fuel := by
  induction fuel with
  | zero => rfl
  | succ fuel ih =>
    unfold watched ofFuel
    rw [ih]
    rfl

theorem watched_contained (stop : Store → Bool) (fuel : Nat) : (watched stop fuel).Contained := by
  induction fuel with
  | zero => exact exhausted_contained
  | succ fuel ih =>
    refine ⟨fun op f => stays_unlessStopped (stays_execute ih op f),
      fun e f => stays_unlessStopped (stays_evaluate ih e f),
      fun callable args mode f home =>
        stays_unlessStopped (stays_callFunction ih callable args mode f home), fun hstep => ?_⟩
    refine stays_unlessStopped (stays_bind hstep fun goesOn => ?_)
    split
    · exact ih.loop hstep
    · exact stays_pure _

instance watched_steady (stop : Store → Bool) (fuel : Nat) : (watched stop fuel).Steady where
  operation op f := ((watched_contained stop fuel).operation op f).climbs
  expr e f := ((watched_contained stop fuel).expr e f).climbs
  call callable args mode f := ((watched_contained stop fuel).call callable args mode f none).climbs
  loop step hstep := by
    induction fuel with
    | zero => exact climbs_throw _
    | succ fuel ih =>
      refine climbs_then climbs_get fun w => ?_
      split
      · exact climbs_throw _
      · refine climbs_then hstep fun goesOn => ?_
        split
        · exact ih
        · exact climbs_pure _

variable {ρ : Matching}

/-- **Every run agrees with every other** from a world that is alike, watched or not. -/
theorem watched_alike {stop stop' : Store → Bool} (same : ∀ s s', s.Alike ρ s' → stop s = stop' s')
    (fuel : Nat) : (watched stop fuel).Alike ρ (watched stop' fuel) := by
  induction fuel with
  | zero =>
    exact ⟨fun _ _ _ _ _ => agree_throw .outOfFuel, fun _ _ _ _ _ => agree_throw .outOfFuel,
      fun _ _ _ _ _ _ _ _ _ _ => agree_throw .outOfFuel, fun _ _ _ _ => agree_throw .outOfFuel⟩
  | succ fuel ih =>
    refine ⟨fun op f f' hf hop => agree_unlessStopped same (agree_execute ih hf hop),
      fun e f f' hf he => agree_unlessStopped same (agree_evaluate ih hf he),
      fun callable callable' args args' mode f f' hc hargs hf =>
        agree_unlessStopped same (agree_callFunction ih hf hc hargs mode),
      fun step step' _ hstep => agree_unlessStopped same ?_⟩
    refine agree_bind hstep fun goesOn goesOn' same => ?_
    subst same
    split
    · exact ih.loop step step' hstep
    · exact agree_pure trivial

theorem ofFuel_alike (fuel : Nat) : (ofFuel fuel).Alike ρ (ofFuel fuel) := by
  rw [← watched_never]
  exact watched_alike (fun _ _ _ => rfl) fuel

end Runner

end ValueShell
