/-
  What the evaluations inside an orderly unit find.

  A triple says of a run how it ends.  What the evaluations in the middle of it find is said here: each of them
  is READY, which is what a triple asks for before the run.  The world is sound, and the frame finds the
  names that the code was compiled with.

  Which evaluations a rule runs is written nowhere, but it can be tried, and with more than an exit.  Let
  a rule run an evaluation that is not ready, and answer for it that the program exits with a forbidden report
  in the journal.  Nothing absorbs the exit, so the rule ends with that report (`FollowsIn.cut`).  But a runner may
  answer anything where nothing is ready: it still keeps the world sound (`answering_faithful`).  Then so
  does the rule, and no sound world has the report.
-/
import ValueShell.Proofs.SessionSafety
import ValueShell.Proofs.SignalBoundaries

namespace ValueShell

open Eval Conduct

/-! ## Being ready -/

/-- **The task finds what the scope check vouches for**: code its names, a call closures that are founded. -/
inductive Task.Finds (g : Ground) (homes : List ScopeId) (w : World) : Task → Prop
  | operation {op : Operation} {f : Frame} {t t' : ScopeTable} (names : op.Scoped g.early t t')
      (covers : f.Covers g homes t w) : Finds g homes w (.operation op f)
  | expr {e : Expr} {f : Frame} {t : ScopeTable} (names : e.Scoped g.early t)
      (covers : f.Covers g homes t w) : Finds g homes w (.expr e f)
  | call {callable : Callable} {args : List Value} {mode : CallMode} {f : Frame}
      (builtins : f.setting.builtins = g.builtins) (admits : w.Admits g homes (.function callable :: args)) :
      Finds g homes w (.call callable args mode f)

/-- **The task is ready** to be run in the world. -/
def Task.Ready (g : Ground) (t : Task) (w : World) : Prop := ∃ homes, w.Sound g homes ∧ t.Finds g homes w

variable {g : Ground}

/-! ## A report that no sound world has -/

namespace World

/-- The report that a variable without a name is missing. -/
def misreport (w : World) : World := w.note (.raised (.variableNotFound ""))

variable {w : World} {homes : List ScopeId}

theorem evolves_misreport (home : Option ScopeId) (loading : List String) :
    Evolves .cut home loading w w.misreport := .trans (.change (.raise _)) (.cut _)

/-- A variable that may be missing is in a namespace, so it is shown with a name. -/
theorem not_sound_misreport : ¬w.misreport.Sound g homes := by
  intro sound
  obtain ⟨text, shown, isOpen⟩ := sound.faults _ List.mem_cons_self
  rw [qualifiedName, if_neg isOpen.qualified] at shown
  have colon : ':' ∈ "".toList := by
    rw [shown]
    simp
  cases colon

theorem obeyed_misreport (h : g.Obeyed w.journal) : g.Obeyed w.misreport.journal := by
  intro path code ran
  rcases List.mem_cons.mp ran with same | ran
  · exact nomatch same
  · exact h path code ran

end World

/-! ## Computations with an answer of their own -/

namespace Eval

/-- **The second computation departs from the first** in the world `v` alone, where it stops in the world `u`; and it
does so only if `φ` holds. -/
def Departs (v u : World) (stop : Stop) (φ : Prop) {α : Type} (x y : Eval α) : Prop :=
  ∀ w, y w = x w ∨ φ ∧ v = w ∧ y w = (.error stop, u)

variable {α : Type} {v u : World} {stop : Stop} {φ : Prop} {x y : Eval α} {home : Option ScopeId}

theorem Departs.stays {loading : List String} (h : Departs v u stop φ x y)
    (evolves : Evolves stop.ending home loading v u) (hx : Stays home loading x) : Stays home loading y := by
  intro w
  obtain same | ⟨-, rfl, answered⟩ := h w
  · rw [same]
    exact hx w
  · rw [answered]
    exact evolves

/-- It keeps the world sound if what is asked for does not hold where it departs. -/
theorem Departs.triple {g : Ground} {homes : List ScopeId} {P : World → Prop} {Q : α → World → Prop}
    (h : Departs v u stop φ x y) (grows : Grows home v u) (apart : φ → v.Sound g homes → ¬P v)
    (hx : Triple g homes home P x Q) : Triple g homes home P y Q where
  grows w := by
    obtain same | ⟨-, rfl, answered⟩ := h w
    · rw [same]
      exact hx.grows w
    · rw [answered]
      exact grows
  keeps w obeyed sound pre := by
    obtain same | ⟨here, rfl, -⟩ := h w
    · rw [same] at obeyed ⊢
      exact hx.keeps w obeyed sound pre
    · exact absurd pre (apart here sound)

end Eval

namespace Runner

variable {r : Runner} {t : Task} {v u : World} {stop : Stop}

theorem answering_answering {answer other : Except Stop (List Value) × World} :
    (r.answering t v other).answering t v answer = r.answering t v answer := by
  simp only [answering, Runner.mk.injEq]
  refine ⟨?_, ?_, ?_, trivial⟩
  all_goals
    funext
    split <;> rfl

/-- A task that is to stop does. -/
theorem run_answering : (r.answering t v (.error stop, u)).run t v = (.error stop, u) := by
  cases t with
  | operation op f =>
    have answered : (r.answering _ v (.error stop, u)).operation op f v = (.error stop, u) := if_pos ⟨rfl, rfl⟩
    rw [run_operation, answered]
    rfl
  | expr e f => exact if_pos ⟨rfl, rfl⟩
  | call callable args mode f =>
    have answered : (r.answering _ v (.error stop, u)).call callable args mode f v = (.error stop, u) :=
      if_pos ⟨rfl, rfl⟩
    rw [run_call, answered]
    rfl

theorem departs_operation (op : Operation) (f : Frame) : Departs v u stop (t = .operation op f)
    (r.operation op f) ((r.answering t v (.error stop, u)).operation op f) := fun w => by
  by_cases here : t = .operation op f ∧ v = w
  · exact .inr ⟨here.1, here.2, if_pos here⟩
  · exact .inl (if_neg here)

theorem departs_expr (e : Expr) (f : Frame) : Departs v u stop (t = .expr e f)
    (r.expr e f) ((r.answering t v (.error stop, u)).expr e f) := fun w => by
  by_cases here : t = .expr e f ∧ v = w
  · exact .inr ⟨here.1, here.2, if_pos here⟩
  · exact .inl (if_neg here)

theorem departs_call (callable : Callable) (args : List Value) (mode : CallMode) (f : Frame) :
    Departs v u stop (t = .call callable args mode f) (r.call callable args mode f)
      ((r.answering t v (.error stop, u)).call callable args mode f) := fun w => by
  by_cases here : t = .call callable args mode f ∧ v = w
  · exact .inr ⟨here.1, here.2, if_pos here⟩
  · exact .inl (if_neg here)

section Answers

variable (evolves : ∀ home loading, Evolves stop.ending home loading v u)
include evolves

/-- The world may evolve to the answer. -/
theorem answering_contained (hr : r.Contained) : (r.answering t v (.error stop, u)).Contained where
  operation op f := (departs_operation op f).stays (evolves _ _) (hr.operation op f)
  expr e f := (departs_expr e f).stays (evolves _ _) (hr.expr e f)
  call callable args mode f home :=
    (departs_call callable args mode f).stays (evolves _ _) (hr.call callable args mode f home)
  loop := hr.loop

/-- **Where nothing is ready, any answer will do**: the runner keeps the world sound. -/
theorem answering_faithful (hr : r.Faithful g) (unready : ¬t.Ready g v) :
    (r.answering t v (.error stop, u)).Faithful g where
  operation names home := (departs_operation _ _).triple (evolves _ []).grows
    (fun here sound covers => unready ⟨_, sound, here ▸ .operation names covers⟩) (hr.operation names home)
  expr names := (departs_expr _ _).triple (evolves _ []).grows
    (fun here sound covers => unready ⟨_, sound, here ▸ .expr names covers⟩) (hr.expr names)
  call := (departs_call _ _ _ _).triple (evolves _ []).grows
    (fun here sound pre => unready ⟨_, sound, here ▸ .call pre.1 pre.2⟩) hr.call
  loop := hr.loop

end Answers

theorem triple_valueless {homes : List ScopeId} {home : Option ScopeId} {P : World → Prop} {x : Eval Unit}
    {Q : Unit → World → Prop} (h : Triple g homes home P x Q) :
    Triple g homes home P (x >>= fun _ => (return [] : Eval (List Value))) fun _ _ => True :=
  triple_then h fun _ => triple_pure fun _ _ => trivial

/-- **What a task that is ready ends with** is a sound world, whatever the runner. -/
theorem perform_sound (hr : r.Faithful g) (hc : r.Contained) (ready : t.Ready g v)
    (obeyed : g.Obeyed (r.perform t v).2.journal) : ∃ homes, (r.perform t v).2.Sound g homes := by
  obtain ⟨homes, sound, finds⟩ := ready
  refine ⟨homes, ?_⟩
  cases finds with
  | operation names covers =>
    exact ((triple_valueless (triple_execute hr hc names (.inl rfl))).keeps v obeyed sound covers).1
  | expr names covers => exact ((triple_evaluate hr names).keeps v obeyed sound covers).1
  | call builtins admits =>
    exact ((triple_valueless (triple_callFunction hr hc _ _ _)).keeps v obeyed sound ⟨builtins, admits⟩).1

theorem perform_grows (hc : r.Contained) (t : Task) (w : World) : ∃ home, Grows home w (r.perform t w).2 := by
  cases t with
  | operation op f => exact ⟨_, (stays_bind (stays_execute hc op f) (fun _ => stays_pure _) w).grows⟩
  | expr e f => exact ⟨_, (stays_evaluate hc e f w).grows⟩
  | call callable args mode f =>
    exact ⟨none, (stays_bind (stays_callFunction hc callable args mode f _) (fun _ => stays_pure _) w).grows⟩

end Runner

/-! ## From the outside to the inside -/

namespace Evaluation

variable {outer inner : Evaluation}

/-- **The outer evaluation ends as the inner one does** if that exits, and in the same world. -/
theorem Runs.perform_answering (h : outer.Runs inner) (keeps : outer.Keeps .anywhere) (code : Int) (u : World) :
    ((Runner.ofFuel inner.fuel).answering inner.task inner.world (.error (.exit code), u)).perform
      outer.task outer.world = (.error (.exit code), u) := by
  have lawful : Provenance.anywhere.Lawful
      ((Runner.ofFuel inner.fuel).answering inner.task inner.world (.error (.exit code), u)) :=
    ⟨⟨inner.fuel, rfl⟩, fun t w _ _ =>
      ⟨World.carries_all (fun _ => trivial) _, fun vs _ v _ => v.carries_all fun _ => trivial⟩⟩
  have follows := Provenance.follows_perform lawful keeps.admitted outer.world keeps.world
  have ends := follows.cut inner.task inner.world (.exit code)
    (fun code' => by
      rw [Runner.answering_answering]
      exact h.2 code') (congrArg Prod.fst Runner.run_answering) trivial
  rwa [Runner.run_answering] at ends

/-- An evaluation starts in a world that has grown since the one that runs it started. -/
theorem Runs.grows (h : outer.Runs inner) (keeps : outer.Keeps .anywhere) :
    ∃ home, Grows home outer.world inner.world := by
  have contained : ((Runner.ofFuel inner.fuel).answering inner.task inner.world
      (.error (.exit 0), inner.world)).Contained :=
    Runner.answering_contained (fun _ _ => .cut _) (Runner.ofFuel_contained _)
  have grows := Runner.perform_grows contained outer.task outer.world
  rwa [h.perform_answering keeps] at grows

/-- **What runs inside of what is ready** is ready. -/
theorem Runs.ready (h : outer.Runs inner) (keeps : outer.Keeps .anywhere) (ready : outer.task.Ready g outer.world)
    (obeyed : g.Obeyed inner.world.journal) : inner.task.Ready g inner.world := by
  refine Classical.byContradiction fun unready => ?_
  let r := (Runner.ofFuel inner.fuel).answering inner.task inner.world (.error (.exit 0), inner.world.misreport)
  have evolves (home : Option ScopeId) (loading : List String) :
      Evolves (Stop.exit 0).ending home loading inner.world inner.world.misreport :=
    World.evolves_misreport home loading
  have faithful : r.Faithful g := Runner.answering_faithful evolves (Runner.ofFuel_faithful g _) unready
  have contained : r.Contained := Runner.answering_contained evolves (Runner.ofFuel_contained _)
  have ends : r.perform outer.task outer.world = (.error (.exit 0), inner.world.misreport) :=
    h.perform_answering keeps 0 _
  obtain ⟨homes, sound⟩ := Runner.perform_sound faithful contained ready (by
    rw [ends]
    exact World.obeyed_misreport obeyed)
  rw [ends] at sound
  exact World.not_sound_misreport sound

/-- What ran before the outer evaluation, ran before the inner one. -/
theorem Leads.obeyed {link : Task → Task → Prop} (way : outer.Leads link inner) (keeps : outer.Keeps .anywhere)
    (obeyed : g.Obeyed inner.world.journal) : g.Obeyed outer.world.journal := by
  induction way with
  | here => exact obeyed
  | step runs _ _ ih =>
    obtain ⟨home, grows⟩ := runs.grows keeps
    exact (ih (keeps.runs runs) obeyed).before grows

/-- **All evaluations inside** are ready, by induction on the way to them. -/
theorem Leads.ready {link : Task → Task → Prop} (way : outer.Leads link inner) (keeps : outer.Keeps .anywhere)
    (ready : outer.task.Ready g outer.world) (obeyed : g.Obeyed inner.world.journal) :
    inner.task.Ready g inner.world := by
  induction way with
  | here => exact ready
  | step runs _ rest ih =>
    have inside := keeps.runs runs
    exact ih inside (runs.ready keeps ready (rest.obeyed inside obeyed)) obeyed

end Evaluation

/-! ## In a session -/

namespace Session

variable {early : String → Prop} {s : Session} {fuel : Nat} {op : Operation} {source : Source} {ports : Ports}
  {e : Evaluation}

/-- **A unit is ready** to be run, if the session is sound. -/
theorem Sound.ready (h : s.Sound early) (compiled : s.compile source = .ok op) (orderly : op.Orderly early) :
    (s.evaluation fuel op source ports).task.Ready (s.ground early) (s.evaluation fuel op source ports).world := by
  obtain ⟨chunk, -, made⟩ := compile_ok compiled
  obtain ⟨t', names⟩ := compileUnit_scoped made orderly
  exact ⟨[s.globals], h.newScope [], .operation names (h.covers source ports)⟩

/-- **Every evaluation inside an orderly unit** is ready. -/
theorem Reached.ready (reached : s.Reached early) (compiled : s.compile source = .ok op) (orderly : op.Orderly early)
    (inside : (s.evaluation fuel op source ports).Encloses e) (obeyed : (s.ground early).Obeyed e.world.journal) :
    e.task.Ready (s.ground early) e.world := by
  have keeps : (s.evaluation fuel op source ports).Keeps .anywhere :=
    ⟨trivial, World.carries_all (fun _ => trivial) _⟩
  have sound : s.Sound early := reached.sound (inside.obeyed keeps obeyed)
  exact inside.ready keeps (sound.ready compiled orderly) obeyed

end Session

end ValueShell
