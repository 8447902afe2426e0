/-
  The evaluator under a schedule.

  Of a schedule two things are asked (`Schedule.Lawful`).  It takes nothing back: scopes stay, and so do the
  values of read-only variables.  And it does not go by the numbers of things: in frames and worlds that are alike
  it does the same.  It may go by anything else, by what the code is, by what is in the files, by what the
  next program does, which nobody knows.  So a fixed schedule is no restriction of what the stages do at the
  same time; it only says that two runs which are compared have the same luck.

  Under any such schedule every evaluation agrees with itself, as it does where the stages run in order.
-/
import ValueShell.Eval.Schedule
import ValueShell.Proofs.AlikeEvaluation

namespace ValueShell

open Eval

/-! ## Where the stages run in order -/

namespace Runner

section InOrder

variable {r : Runner} {f : Frame} {w : World}

/-- What is being loaded elsewhere ends everything, where stages run in order. -/
theorem fetchModule_busy {path : String} (busy : w.modules.request path f.loading = .busy) :
    r.fetchModule f path w = (.error .blocked, w) := by
  rw [fetchModule, get_bind_run, busy]
  rfl

/-- And so does its `use`. -/
theorem useModule_busy {name target path : String} (resolved : resolvePath f.source target = .ok path)
    (busy : w.modules.request path f.loading = .busy) :
    r.useModule name target f w = (.error .blocked, w) := by
  have imported : r.importModule f target w = (.error .blocked, w) := by
    rw [importModule, resolved, ofExcept_ok, pure_bind, bind_run, fetchModule_busy busy]
  rw [useModule, bind_run, imported]

/-- Either an import would not wait, or it ends everything at once. -/
theorem awaitImport_inOrder (r : Runner) (f : Frame) (name target : String) (w : World) :
    r.awaitImport .inOrder f target w = (.ok (), w) ∨
      r.awaitImport .inOrder f target w = (.error .blocked, w) ∧
        r.useModule name target f w = (.error .blocked, w) := by
  unfold awaitImport
  cases resolved : resolvePath f.source target with
  | error e => exact .inl rfl
  | ok path =>
    dsimp only
    rw [awaitModule, get_bind_run]
    cases found : w.modules.request path f.loading with
    | busy => exact .inr ⟨rfl, useModule_busy resolved found⟩
    | _ => exact .inl rfl

/-- There, to wait first makes no difference. -/
theorem executeUnder_inOrder (r : Runner) (op : Operation) (f : Frame) :
    r.executeUnder .inOrder op f = r.execute op f := by
  cases op with
  | useModule name target span =>
    funext w
    show (r.awaitImport .inOrder f target >>= fun _ => r.execute (.useModule name target span) f) w = _
    rcases awaitImport_inOrder r f name target w with runs | ⟨waits, blocked⟩
    · rw [bind_run_ok runs]
    · have same : r.execute (.useModule name target span) f w = (.error .blocked, w) := by
        show (r.useModule name target f).located (f.site span) w = _
        rw [located, mapStop_run, blocked]
        rfl
      rw [bind_run, waits, same]
  | _ => rfl

/-- **The evaluator runs one stage after the other.** -/
theorem under_inOrder (fuel : Nat) : under .inOrder fuel = ofFuel fuel := by
  induction fuel with
  | zero => rfl
  | succ fuel ih =>
    unfold under ofFuel
    rw [ih]
    simp only [executeUnder_inOrder]

end InOrder

end Runner

/-! ## What is asked of a schedule -/

/-- **What is asked of a schedule**: that it takes nothing back, and that it does not go by numbers. -/
structure Schedule.Lawful (schedule : Schedule) : Prop where
  climbs_stages : ∀ (r : Runner) [r.Steady] f input ops, Climbs (schedule.stages r f input ops)
  climbs_wait : ∀ (r : Runner) [r.Steady] f path, Climbs (schedule.wait r f path)
  agree_stages : ∀ {ρ : Matching} {r r' : Runner} [r.Steady] {f f' : Frame}, r.Alike ρ r' →
    f.Alike ρ f' → ∀ {ops : List Operation}, (∀ op ∈ ops, (Code.operation op).Each ρ.Admits) →
    ∀ {input input' : Option QueueId}, Option.Rel ρ.Input input input' →
    Agree ρ (fun _ _ => True) (schedule.stages r f input ops) (schedule.stages r' f' input' ops)
  agree_wait : ∀ {ρ : Matching} {r r' : Runner} [r.Steady] {f f' : Frame}, r.Alike ρ r' →
    f.Alike ρ f' → ∀ path,
    Agree ρ (fun _ _ => True) (schedule.wait r f path) (schedule.wait r' f' path)

namespace Runner

variable {ρ : Matching} {r r' : Runner} [r.Steady] {f f' : Frame} {schedule : Schedule}
  (lawful : schedule.Lawful)
include lawful

omit [r.Steady] lawful in
/-- To ask whether a module is busy takes nothing back. -/
theorem climbs_ifBusy {α : Type} (path : String) {waits goes : Eval α} (hwaits : Climbs waits) (hgoes : Climbs goes) :
    Climbs (do
      match (← get).modules.request path f.loading with
      | .busy => waits
      | _ => goes) := by
  refine climbs_then inferInstance fun w => ?_
  cases w.modules.request path f.loading with
  | busy => exact hwaits
  | _ => exact hgoes

/-- To wait takes nothing back, if the schedule does not. -/
theorem climbs_awaitModule (path : String) : Climbs (r.awaitModule schedule f path) := by
  have waits := lawful.climbs_wait r f path
  refine climbs_ifBusy path (climbs_then waits fun _ => ?_) inferInstance
  exact @climbs_loop _ _ _ (climbs_ifBusy path (climbs_then waits fun _ => inferInstance) inferInstance)

/-- Nor does any operation. -/
theorem climbs_executeUnder (op : Operation) : Climbs (r.executeUnder schedule op f) := by
  cases op with
  | pipeline ops span =>
    exact @climbs_located _ _ _ (lawful.climbs_stages r f f.ports.input ops)
  | useModule name target span =>
    refine climbs_then ?_ fun _ => climbs_execute r f _
    unfold awaitImport
    split
    · exact climbs_awaitModule lawful _
    · infer_instance
  | _ => exact climbs_execute r f _

omit [r.Steady] in
/-- **Under a lawful schedule the evaluator takes nothing back.** -/
theorem under_steady (fuel : Nat) : (under schedule fuel).Steady := by
  induction fuel with
  | zero => exact exhausted_steady
  | succ fuel ih =>
    refine ⟨fun op f => climbs_executeUnder lawful op, fun e f => climbs_evaluate _ f e,
      fun callable args mode f => climbs_callFunction _ f callable args mode, fun step climbs => ?_⟩
    refine climbs_then climbs fun goesOn => ?_
    split <;> infer_instance

/-! ## Agreement -/

section Agreement

variable (hr : r.Alike ρ r') (hf : f.Alike ρ f')
include hr hf

omit [r.Steady] lawful hr in
/-- Where the module is busy for the one, it is busy for the other. -/
theorem agree_ifBusy {α α' : Type} {R : α → α' → Prop} (path : String) {waits : Eval α} {goes : Eval α}
    {waits' : Eval α'} {goes' : Eval α'} (hwaits : Agree ρ R waits waits') (hgoes : Agree ρ R goes goes') :
    Agree ρ R
      (do
        match (← get).modules.request path f.loading with
        | .busy => waits
        | _ => goes)
      (do
        match (← get).modules.request path f'.loading with
        | .busy => waits'
        | _ => goes') := by
  refine agree_get fun w w' hw => ?_
  rw [← hf.loading]
  have found := ModuleCache.request_alike hw.modules path f.loading
  generalize w.modules.request path f.loading = answer at found
  generalize w'.modules.request path f.loading = answer' at found
  cases found with
  | busy => exact hwaits
  | _ => exact hgoes

/-- Both wait for the same module, as many times. -/
theorem agree_awaitModule (path : String) :
    Agree ρ (fun _ _ => True) (r.awaitModule schedule f path) (r'.awaitModule schedule f' path) := by
  have waits := lawful.agree_wait hr hf path
  have climbs : Climbs (schedule.wait r f path) := lawful.climbs_wait r f path
  have again := climbs_ifBusy (f := f) path (climbs_then climbs fun _ => climbs_pure true) (climbs_pure false)
  refine agree_ifBusy hf path (agree_then waits (fun _ _ _ => hr.loop _ _ ?_) inferInstance) (agree_pure trivial)
  -- a round of waiting goes by the answer when it begins
  exact agree_ifBusy hf path (agree_bind waits fun _ _ _ => agree_pure rfl) (agree_pure rfl)

/-- Both ask for the same path. -/
theorem agree_awaitImport (target : String) :
    Agree ρ (fun _ _ => True) (r.awaitImport schedule f target) (r'.awaitImport schedule f' target) := by
  unfold awaitImport
  rw [resolvePath_eq hf]
  split
  · exact agree_awaitModule lawful hr hf _
  · exact agree_pure trivial

/-- Operations under a lawful schedule agree: pipelines and imports ask it, and all others do not. -/
theorem agree_executeUnder {op : Operation} (hop : (Code.operation op).Each ρ.Admits) :
    Agree ρ (fun _ _ => True) (r.executeUnder schedule op f) (r'.executeUnder schedule op f') := by
  cases op with
  | pipeline ops span =>
    refine agree_located (hf.site _) ?_
    exact lawful.agree_stages hr hf (fun op h => hop.child (List.mem_map_of_mem h)) hf.ports.input
  | useModule name target span =>
    refine agree_then (agree_awaitImport lawful hr hf target) (fun _ _ _ => agree_execute hr hf hop)
      fun _ => climbs_execute r f _
  | _ => exact agree_execute hr hf hop

end Agreement

omit [r.Steady] in
/-- **Under a schedule, every run agrees with every other** from a world that is alike. -/
theorem under_alike (fuel : Nat) : (under schedule fuel).Alike ρ (under schedule fuel) := by
  induction fuel with
  | zero =>
    exact ⟨fun _ _ _ _ _ => agree_throw .outOfFuel, fun _ _ _ _ _ => agree_throw .outOfFuel,
      fun _ _ _ _ _ _ _ _ _ _ => agree_throw .outOfFuel, fun _ _ _ _ => agree_throw .outOfFuel⟩
  | succ fuel ih =>
    have steady := under_steady lawful fuel
    refine ⟨fun op f f' hf hop => agree_executeUnder lawful ih hf hop,
      fun e f f' hf he => agree_evaluate ih hf he,
      fun callable callable' args args' mode f f' hc hargs hf => agree_callFunction ih hf hc hargs mode,
      fun step step' climbs hstep => ?_⟩
    refine agree_bind hstep fun goesOn goesOn' same => ?_
    subst same
    split
    · exact ih.loop step step' hstep
    · exact agree_pure trivial

end Runner

/-! ## Whole stages in turns -/

namespace Eval

variable {ρ : Matching} {α β : Type}

/-- Both computations take nothing back, whichever goes ahead. -/
instance climbs_both (ahead : Bool) (x : Eval α) (y : Eval β) [Climbs x] [Climbs y] :
    Climbs (both ahead x y) := by
  unfold both
  split <;> infer_instance

end Eval

namespace Schedule

variable {ahead : World → Bool}

/-- **The order of the pipeline is a lawful schedule.** -/
theorem inOrder_lawful : inOrder.Lawful where
  climbs_stages r _ f input ops := Runner.climbs_stages r f input ops
  climbs_wait _ _ _ _ := climbs_throw _
  agree_stages hr hf _ hops _ _ hinput := Runner.agree_stages hr hf hops hinput
  agree_wait _ _ _ := agree_throw .blocked

end Schedule

end ValueShell
