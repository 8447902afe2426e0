/-
  Sessions whose host refers to nothing that is not there.

  A session may run any code.  What its host hands in, as global variables or in the streams, are values that
  refer only to scopes that the session has.  Then the same is true of all that the session holds, in every
  state between units: its variables, the namespaces of its modules and the values that wait in its queues.

  This is a fact about runs that no single step shows, since a value can be stored anywhere and be read again.
  It comes out of comparing each run with itself: a world is like itself, where no scope has a number above a
  bound, just if it refers to no scope above that bound.
-/
import ValueShell.Proofs.Schedules
import ValueShell.Proofs.SelfLikeness

namespace ValueShell

namespace Session

variable {s : Session} {bound : Nat}

/-- **All scopes that the value refers to are there.** -/
def Knows (s : Session) (v : Value) : Prop :=
  v.Alike (.itself s.world.store.scopes.size False) v

/-- **The states of a session** that runs any code, its stages by any schedules, and whose host hands in
what the session knows. -/
inductive Hosted : Session → Prop
  | start {library : Library} {environment : Environment} {files : FileTree} {processId : String} :
      Hosted (.start library environment files processId)
  | unit {s : Session} (before : Hosted s) {schedule : Schedule} (lawful : schedule.Lawful) (fuel : Nat)
      (source : Source) (ports : Ports) : Hosted (s.evaluateBy (.under schedule fuel) source ports).2
  | global {s : Session} (before : Hosted s) (name : String) {v : Value} (known : s.Knows v) :
      Hosted (s.bindGlobal name v)
  | host {s : Session} (before : Hosted s) {streams : Streams} (environment : Environment)
      (files : FileTree) (known : ∀ v, streams.Holds v → s.Knows v) :
      Hosted (s.mapWorld fun w => { w with streams, environment, files })

/-- A higher bound admits more. -/
theorem carries_itself {low high : Nat} (h : low ≤ high) :
    (Matching.itself low False).CarriesTo (.itself high False) where
  scopes hs := ⟨hs.1, Nat.lt_of_lt_of_le hs.2 h⟩
  identities hi := hi
  source hs := hs
  admits _ strict := strict.elim

/-- Evaluating a unit changes the world at most, and takes nothing back. -/
theorem evaluateBy_state (s : Session) (r : Runner) [r.Steady] (source : Source) (ports : Ports) :
    ∃ w, (s.evaluateBy r source ports).2 = { s with world := w } ∧ Onward s.world w := by
  unfold evaluateBy
  split
  · exact ⟨s.world, rfl, .refl _⟩
  · exact ⟨s.world, rfl, .refl _⟩
  · next op _ =>
    refine ⟨_, executeBy_state r op source ports, ?_⟩
    exact (grows_entered none s).onward.trans ((Runner.climbs_operation r _ op).onward s.entered)

/-- The scopes that every frame of a unit starts with are there. -/
theorem Hosted.scopes (h : s.Hosted) : s.globals.index < s.world.store.scopes.size ∧
    s.setting.builtins.index < s.world.store.scopes.size := by
  induction h with
  | @start library environment files processId =>
    have first : (Session.start library environment files processId).globals.index < _ := globals_start
    exact ⟨first, Nat.zero_lt_of_lt first⟩
  | @unit s before schedule lawful fuel source ports ih =>
    have steady := Runner.under_steady lawful fuel
    obtain ⟨w, same, onward⟩ := evaluateBy_state s (.under schedule fuel) source ports
    rw [same]
    exact ⟨Nat.lt_of_lt_of_le ih.1 onward.scopes, Nat.lt_of_lt_of_le ih.2 onward.scopes⟩
  | @global s before name v known ih =>
    have grown := (grows_bindGlobal s name v).scopes
    exact ⟨Nat.lt_of_lt_of_le ih.1 grown, Nat.lt_of_lt_of_le ih.2 grown⟩
  | host _ _ _ _ ih => exact ih

/-- **What a session holds refers to nothing that is not there.** -/
theorem Hosted.itself (h : s.Hosted) (size : s.world.store.scopes.size ≤ bound) :
    s.world.Alike (.itself bound False) s.world := by
  induction h with
  | start => exact alike_start
  | @unit s before schedule lawful fuel source ports ih =>
    have steady := Runner.under_steady lawful fuel
    obtain ⟨w, same, onward⟩ := evaluateBy_state s (.under schedule fuel) source ports
    have grown : s.world.store.scopes.size ≤ bound := by
      rw [same] at size
      exact Nat.le_trans onward.scopes size
    have inside := Nat.lt_of_lt_of_le before.scopes.1 grown
    exact evaluateBy_itself (Runner.under_alike lawful fuel) (ih grown) inside
      (fun _ _ _ _ strict => strict.elim) ⟨size, fun _ _ _ _ _ strict => strict.elim⟩
  | @global s before name v known ih =>
    have grown : s.world.store.scopes.size ≤ bound :=
      Nat.le_trans (grows_bindGlobal s name v).scopes size
    have inside : (Matching.itself bound False).Scope s.globals s.globals :=
      Matching.scope_itself (Nat.lt_of_lt_of_le before.scopes.1 grown)
    have cell : (Cell.plain v).Alike (.itself bound False) (Cell.plain v) :=
      .plain (known.carry (carries_itself grown))
    exact { ih grown with store := (ih grown).store.bindNew inside cell fun strict => strict.elim }
  | @host s _ streams environment files known ih =>
    refine { ih size with streams := ?_, environment := rfl, files := rfl }
    exact Streams.alike_itself fun v held => (known v held).carry (carries_itself size)

end Session

end ValueShell
