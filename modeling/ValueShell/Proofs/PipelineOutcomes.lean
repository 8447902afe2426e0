/-
  What a pipeline ends with.

  Every stage runs, whatever becomes of the ones before it, so a pipeline has as many endings as stages.  The
  first one that is not success is taken, and it does not matter whether that is an exception or a
  signal.  So the exception of a stage is what the pipeline ends with, unless a stage before it ended with a
  signal (`pipeline_failure`).  In that case the signal goes on alone, a loop or a call absorbs it, and nothing is
  left of the exception (`failure_hidden_by_break`).

  The stages are listed as the evaluations that they are, each in the world that the one before it left
  (`stageRuns`).  What the list says of the pipeline is an induction on the stages; that the pipeline runs what is
  on the list is another one.
-/
import ValueShell.Proofs.DefinedFunctions
import ValueShell.Proofs.FailurePositions
import ValueShell.Proofs.TryOutcomes

namespace ValueShell

open Eval Conduct

namespace Evaluation

/-! ## Stages -/

/-- A stage whose values go to the next one, by a queue made for it. -/
def innerStage (fuel : Nat) (f : Frame) (input : Option QueueId) (op : Operation) (w : World) : Evaluation :=
  let (q, streams) := w.streams.newQueue []
  ⟨fuel, .operation op (f.withPorts ⟨input, .queue q, f.ports.bytes⟩), { w with streams }⟩

/-- **The stages of a pipeline**, from one on whose input is `input`. -/
def stageRuns (fuel : Nat) (f : Frame) (input : Option QueueId) : List Operation → World → List Evaluation
  | [], _ => []
  | [last], w => [⟨fuel, .operation last (f.withPorts { f.ports with input }), w⟩]
  | stage :: next :: rest, w =>
    let here := innerStage fuel f input stage w
    here :: stageRuns fuel f (some (w.streams.newQueue []).1) (next :: rest) here.outcome.2

/-- The failure or the signal that it ends with, if it ends with one. -/
def unwind? (e : Evaluation) : Option Unwind :=
  match e.outcome.1 with
  | .error (.unwind u) => some u
  | _ => none

theorem unwind?_eq_some {e : Evaluation} {u : Unwind} : e.unwind? = some u ↔ e.EndsWith u := by
  unfold unwind? EndsWith
  split
  · next ends =>
    rw [ends]
    exact ⟨fun same => by rw [Option.some.inj same], fun same => by cases same; rfl⟩
  · next other => exact ⟨nofun, fun ends => absurd ends (other u)⟩

/-- How a stage ends, or some of them: with this unwind, or normally. -/
def ending : Option Unwind → Except Unwind Unit
  | none => .ok ()
  | some u => .error u

theorem settle_ending {x : Eval Unit} {u : Option Unwind} {w w' : World}
    (run : x w = ((ending u).mapError .unwind, w')) : settle x w = (.ok (ending u), w') := by
  cases u with
  | none => exact settle_ok run
  | some u => exact settle_unwind run

/-- The world that the last of them leaves. -/
def lastWorld (runs : List Evaluation) (w : World) : World := (runs.getLast?.map fun e => e.outcome.2).getD w

theorem lastWorld_cons {e : Evaluation} {runs : List Evaluation} {w : World} :
    lastWorld (e :: runs) w = lastWorld runs e.outcome.2 := by
  unfold lastWorld
  rw [List.getLast?_cons]
  cases runs.getLast? <;> rfl

section Stages

variable {fuel : Nat} {f : Frame} {input : Option QueueId} {ops : List Operation} {w : World}

/-- There is one for each operation, in order. -/
theorem stageRuns_tasks (fuel : Nat) (f : Frame) (input : Option QueueId) (ops : List Operation) (w : World) :
    List.Forall₂ (fun op e => ∃ ports, e.task = .operation op (f.withPorts ports)) ops
      (stageRuns fuel f input ops w) := by
  induction ops generalizing input w with
  | nil => exact .nil
  | cons stage rest ih =>
    cases rest with
    | nil => exact .cons ⟨_, rfl⟩ .nil
    | cons next rest => exact .cons ⟨_, rfl⟩ (ih _ _)

/-- It has a result, or an unwind. -/
def lasts (e : Evaluation) : Bool := e.outcome.1.isOk || e.unwind?.isSome

theorem not_isCutShort_of_lasts {e : Evaluation} (h : e.lasts = true) : ¬e.IsCutShort := by
  rintro ⟨stop, ends, final⟩
  unfold lasts unwind? at h
  rw [ends] at h
  cases stop with
  | unwind u => exact final
  | _ => exact nomatch h

theorem task_of_mem {e : Evaluation} (listed : e ∈ stageRuns fuel f input ops w) :
    ∃ op ports, e.task = .operation op (f.withPorts ports) := by
  obtain ⟨i, here, rfl⟩ := List.getElem_of_mem listed
  have tasks := stageRuns_tasks fuel f input ops w
  obtain ⟨ports, task⟩ := tasks.get (tasks.length_eq.symm ▸ here) here
  exact ⟨_, ports, task⟩

/-- What a stage that is not cut short comes down to. -/
theorem run_stage {e : Evaluation} {op : Operation} {g : Frame} (task : e.task = .operation op g)
    (lasting : ¬e.IsCutShort) :
    (Runner.ofFuel e.fuel).operation op g e.world = ((ending e.unwind?).mapError .unwind, e.outcome.2) := by
  have outcome : e.outcome = _ := (congrArg (fun t => (Runner.ofFuel e.fuel).run t e.world) task).trans
    (run_operation _ op g e.world)
  unfold unwind?
  unfold IsCutShort at lasting
  rw [outcome] at lasting ⊢
  rcases run : (Runner.ofFuel e.fuel).operation op g e.world with ⟨stop | _, w'⟩ <;> rw [run] at lasting
  · obtain ⟨u, rfl⟩ := stop.unwind_of_not_final fun final => lasting ⟨stop, rfl, final⟩
    rfl
  · rfl

/-- **The stages end as the first of them that does not succeed**, by induction on them. -/
theorem run_stages (lasting : ∀ e ∈ stageRuns fuel f input ops w, ¬e.IsCutShort) :
    (Runner.ofFuel fuel).stages f input ops w =
      ((ending ((stageRuns fuel f input ops w).findSome? unwind?)).mapError .unwind,
        lastWorld (stageRuns fuel f input ops w) w) := by
  induction ops generalizing input w with
  | nil => rfl
  | cons stage rest ih =>
    cases rest with
    | nil =>
      rw [stageRuns, List.findSome?_singleton]
      exact run_stage rfl (lasting _ (List.mem_singleton_self _))
    | cons next rest =>
      obtain ⟨here, same⟩ : ∃ here, here = innerStage fuel f input stage w := ⟨_, rfl⟩
      rw [stageRuns, ← same] at lasting ⊢
      have queue : updateStreams (fun s => s.newQueue []) w = (.ok (w.streams.newQueue []).1, here.world) := by
        rw [same]
        rfl
      have ended := settle_ending (run_stage (congrArg task same) (lasting here List.mem_cons_self))
      have later := settle_ending (ih fun e listed => lasting e (List.mem_cons_of_mem _ listed))
      rw [show here.fuel = fuel from congrArg Evaluation.fuel same] at ended
      rw [List.findSome?_cons, lastWorld_cons]
      refine (bind_run_ok queue).trans ((bind_run_ok ended).trans ((bind_run_ok later).trans ?_))
      cases here.unwind? with
      | none => cases List.findSome? unwind? (stageRuns ..) <;> rfl
      | some u => rfl

theorem follows_stage {op : Operation} {g : Frame} : anything.FollowsIn (.ofFuel fuel) anything.Own
    (fun r => r.operation op g) (fun _ => True) w :=
  follows_operation (lawful_ofFuel_anything fuel) trivial w (World.carries_all (fun _ => trivial) w)

theorem follows_rest : anything.FollowsIn (.ofFuel fuel) anything.Own
    (fun r => r.stages f input ops) (fun _ => True) w :=
  follows_stages (lawful_ofFuel_anything fuel) (fun _ _ _ => trivial) (fun _ _ => trivial) input w
    (World.carries_all (fun _ => trivial) w)

/-- **Every stage on the list is run**, by induction on the operations. -/
theorem comes_stages (lasting : ∀ e ∈ stageRuns fuel f input ops w, ¬e.IsCutShort) {e : Evaluation}
    (listed : e ∈ stageRuns fuel f input ops w) :
    e.fuel = fuel ∧ Runner.Comes (fun r => r.stages f input ops) (.ofFuel fuel) w e.task e.world := by
  induction ops generalizing input w with
  | nil => exact nomatch listed
  | cons stage rest ih =>
    cases rest with
    | nil =>
      rw [stageRuns, List.mem_singleton] at listed
      rw [listed]
      exact ⟨rfl, comes_operation.mpr ⟨rfl, rfl⟩⟩
    | cons next rest =>
      have new : anything.FollowsIn (.ofFuel fuel) anything.Own (fun _ => updateStreams fun s => s.newQueue []) _ w :=
        follows_newQueue w (World.carries_all (fun _ => trivial) w)
      let here := innerStage fuel f input stage w
      rcases List.mem_cons.mp listed with rfl | listed
      · refine ⟨rfl, new.comes_second rfl (comes_first ?_)⟩
        exact follows_stage.comes_settle.mpr (comes_operation.mpr ⟨rfl, rfl⟩)
      · have ended := settle_ending (run_stage rfl (lasting here List.mem_cons_self))
        obtain ⟨same, comes⟩ := ih (fun e he => lasting e (List.mem_cons_of_mem _ he)) listed
        refine ⟨same, new.comes_second rfl (follows_stage.settle.comes_second ended (comes_first ?_))⟩
        exact follows_rest.comes_settle.mpr comes

end Stages

/-! ## The pipeline -/

variable {fuel : Nat} {f : Frame} {ops : List Operation} {span : Span} {w : World}

/-- **A pipeline ends as the first stage that does not succeed**, in the world that the last one leaves. -/
theorem pipeline_outcome (lasting : ∀ e ∈ stageRuns fuel f f.ports.input ops w, ¬e.IsCutShort) :
    (mk (fuel + 1) (.operation (.pipeline ops span) f) w).outcome =
      (((ending ((stageRuns fuel f f.ports.input ops w).findSome? unwind?)).mapError .unwind).map fun _ => [],
        lastWorld (stageRuns fuel f f.ports.input ops w) w) := by
  refine (run_operation (.ofFuel (fuel + 1)) _ _ _).trans ?_
  have run : (Runner.ofFuel (fuel + 1)).operation (.pipeline ops span) f w =
      located (f.site span) ((Runner.ofFuel fuel).stages f f.ports.input ops) w := rfl
  rw [run, located, mapStop_run, run_stages lasting]
  cases found : (stageRuns fuel f f.ports.input ops w).findSome? unwind? with
  | none => rfl
  | some u =>
    -- what leaves a stage has its place already
    obtain ⟨stage, listed, ends⟩ := List.exists_of_findSome?_eq_some found
    obtain ⟨op, ports, task⟩ := task_of_mem listed
    have firm : u.located (f.site span) = u := (unwind?_eq_some.mp ends).firm task _
    exact congrArg (fun u => (Except.error (Stop.unwind u), _)) firm

/-- Every stage is run by the pipeline. -/
theorem pipeline_runs (lasting : ∀ e ∈ stageRuns fuel f f.ports.input ops w, ¬e.IsCutShort) {e : Evaluation}
    (listed : e ∈ stageRuns fuel f f.ports.input ops w) :
    (mk (fuel + 1) (.operation (.pipeline ops span) f) w).Runs e := by
  obtain ⟨rfl, comes⟩ := comes_stages lasting listed
  exact ⟨rfl, follows_rest.comes_placed.mpr comes⟩

/-- **A pipeline ends with the first exception of its stages, unless a signal comes before it.** -/
theorem pipeline_failure {before after : List Evaluation} {stage : Evaluation} {x : Exception}
    (lasting : ∀ e ∈ stageRuns fuel f f.ports.input ops w, ¬e.IsCutShort)
    (listed : stageRuns fuel f f.ports.input ops w = before ++ stage :: after)
    (failed : stage.EndsWith (.exception x)) (first : ∀ earlier ∈ before, ∀ y, ¬earlier.EndsWith (.exception y)) :
    (∀ e ∈ before ++ stage :: after, (mk (fuel + 1) (.operation (.pipeline ops span) f) w).Runs e) ∧
      ((mk (fuel + 1) (.operation (.pipeline ops span) f) w).EndsWith (.exception x) ↔
        ∀ earlier ∈ before, ∀ s, ¬earlier.EndsWith (.signal s)) := by
  refine ⟨fun e he => pipeline_runs lasting (listed ▸ he), ?_⟩
  have found : (stageRuns fuel f f.ports.input ops w).findSome? unwind? =
      (before.findSome? unwind?).or (some (.exception x)) := by
    rw [listed, List.findSome?_append, List.findSome?_cons, unwind?_eq_some.mpr failed]
  have ends (u : Unwind) : (mk (fuel + 1) (.operation (.pipeline ops span) f) w).EndsWith u ↔
      (before.findSome? unwind?).or (some (.exception x)) = some u := by
    rw [EndsWith, pipeline_outcome lasting, ← found]
    cases (stageRuns fuel f f.ports.input ops w).findSome? unwind? with
    | none => constructor <;> (intro never; cases never)
    | some u' => exact ⟨fun h => by cases h; rfl, fun h => by cases h; rfl⟩
  rw [ends]
  cases earliest : before.findSome? unwind? with
  | none =>
    refine ⟨fun _ earlier he s ended => ?_, fun _ => rfl⟩
    rw [List.findSome?_eq_none_iff] at earliest
    cases (earliest earlier he).symm.trans (unwind?_eq_some.mpr ended)
  | some u =>
    obtain ⟨earlier, he, ended⟩ := List.exists_of_findSome?_eq_some earliest
    have ended := unwind?_eq_some.mp ended
    cases u with
    | signal s =>
      refine ⟨fun same => ?_, fun none => absurd ended (none earlier he s)⟩
      cases same
    | exception y => exact absurd ended (first earlier he y)

end Evaluation

namespace Session

open Evaluation

/-- A stage that calls a command with these literals. -/
def stageCalling (name : String) (args : List String) : Operation :=
  .call (.name name) (args.map (.literal · default)) default

/-- The failure of `fail` as such a stage. -/
def failing (message : String) : Unwind := .exception ⟨.failed message, some ⟨.interactive "", default, "top"⟩⟩

/-- The stages of a pipeline at the top, and the pipeline. -/
def stagesOf (ops : List Operation) : List Evaluation :=
  stageRuns 2 bareFrame bareFrame.ports.input ops bare.entered

def pipelineOf (ops : List Operation) : Evaluation :=
  ⟨3, .operation (.pipeline ops default) bareFrame, bare.entered⟩

/-- In `nop | fail x | fail y` the first failure is the one of the second stage. -/
theorem pipeline_failure_second_stage :
    let ops := [stageCalling "nop" [], stageCalling "fail" ["x"], stageCalling "fail" ["y"]]
    (stagesOf ops).map unwind? = [none, some (failing "x"), some (failing "y")] ∧
      (∀ e ∈ stagesOf ops, ¬e.IsCutShort ∧ (pipelineOf ops).Runs e) ∧ (pipelineOf ops).EndsWith (failing "x") := by
  intro ops
  have endings : (stagesOf ops).map unwind? = [none, some (failing "x"), some (failing "y")] := by decide +kernel
  have lasting (e : Evaluation) (he : e ∈ stagesOf ops) : ¬e.IsCutShort :=
    not_isCutShort_of_lasts (List.all_eq_true.mp (by decide +kernel : (stagesOf ops).all lasts = true) e he)
  obtain ⟨e₁, e₂, e₃, listed⟩ : ∃ e₁ e₂ e₃, stagesOf ops = [e₁] ++ e₂ :: [e₃] := ⟨_, _, _, rfl⟩
  obtain ⟨none₁, some₂, -⟩ : e₁.unwind? = none ∧ e₂.unwind? = some (failing "x") ∧ _ := by
    simpa only [listed, List.map_append, List.map_cons, List.map_nil, List.cons_append, List.nil_append,
      List.cons.injEq] using endings
  have none₁ (u : Unwind) (h : e₁.EndsWith u) : False := nomatch none₁.symm.trans (unwind?_eq_some.mpr h)
  obtain ⟨runs, ends⟩ := @pipeline_failure _ _ ops default _ _ _ _ _ lasting listed (unwind?_eq_some.mp some₂)
    fun e he y => List.mem_singleton.mp he ▸ none₁ _
  exact ⟨endings, fun e he => ⟨lasting e he, runs e (listed ▸ he)⟩,
    ends.mpr fun e he s => List.mem_singleton.mp he ▸ none₁ _⟩

/-- **A failure is hidden by a signal.**  In `break | fail x` the second stage fails and the pipeline ends with the
signal; in a loop nothing is left of it, and the unit ends well. -/
theorem failure_hidden_by_break :
    let ops := [stageCalling "break" [], stageCalling "fail" ["x"]]
    (stagesOf ops).map unwind? = [some (.signal .break), some (failing "x")] ∧
      (∀ e ∈ stagesOf ops, ¬e.IsCutShort ∧ (pipelineOf ops).Runs e) ∧ (pipelineOf ops).EndsWith (.signal .break) ∧
      (bare.evaluateCaptured 60 (.interactive "while $true \x7b break | fail x \x7d") none).1 matches .done := by
  intro ops
  have lasting (e : Evaluation) (he : e ∈ stagesOf ops) : ¬e.IsCutShort :=
    not_isCutShort_of_lasts (List.all_eq_true.mp (by decide +kernel : (stagesOf ops).all lasts = true) e he)
  refine ⟨by decide +kernel, fun e he => ⟨lasting e he, pipeline_runs lasting he⟩,
    unwind?_eq_some.mp (by decide +kernel), by decide +kernel⟩

end Session

end ValueShell
