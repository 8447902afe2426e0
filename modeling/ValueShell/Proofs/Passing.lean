/-
  What passes an evaluation, and where it comes from.

  Between an evaluation and one that it runs there are two directions.  Upwards, what the inner one ends with
  reaches the end of the outer one, unless the outer one absorbs it, something else overrides it, or everything ends
  (`Runs.reaches`, and along a whole way `Leads.reaches`).  Downwards, what the outer one ends with is its own, or it
  is what an inner one ended with, and then at most a place was given to it that it did not have (`blamed`).
-/
import ValueShell.Proofs.Provenance

namespace ValueShell

open Eval Conduct

namespace Evaluation

variable {P : Provenance} {outer inner : Evaluation} {u : Unwind}

/-- The code that runs belongs to the source of its frame, and all closures belong to theirs. -/
structure Keeps (P : Provenance) (e : Evaluation) : Prop where
  admitted : P.Admits e.task
  world : e.world.Carries P.Good

/-- What an evaluation comes to. -/
theorem Runs.outcome_eq (h : outer.Runs inner) :
    outer.outcome = (Runner.ofFuel inner.fuel).perform outer.task outer.world := by
  rw [outcome, h.1, Runner.run_ofFuel]

/-- A task that runs keeps to the conduct of its source. -/
theorem Runs.follows (_ : outer.Runs inner) (keeps : outer.Keeps P) :
    (P.conduct outer.task).FollowsIn (.ofFuel inner.fuel) (P.conduct outer.task).Own
      (fun r => r.perform outer.task) (fun vs => ∀ v ∈ vs, v.Carries P.Good) outer.world :=
  Provenance.follows_perform (Provenance.lawful_ofFuel inner.fuel) keeps.admitted outer.world keeps.world

/-- What is run inside is admitted. -/
theorem Runs.admitted (h : outer.Runs inner) (keeps : outer.Keeps P) :
    (P.conduct outer.task).admits inner.task :=
  ((h.follows keeps).admitted inner.task inner.world h.2).1

/-- And so the sources are kept. -/
theorem Keeps.runs (keeps : outer.Keeps P) (h : outer.Runs inner) : inner.Keeps P :=
  ⟨(h.admitted keeps).1, ((h.follows keeps).admitted inner.task inner.world h.2).2⟩

theorem Keeps.leads {link : Task → Task → Prop} (keeps : outer.Keeps P) (h : outer.Leads link inner) :
    inner.Keeps P := by
  induction h with
  | here => exact keeps
  | step runs _ _ ih => exact ih (keeps.runs runs)

/-! ## Upwards -/

section Placed

variable {site : Site} {rule : Eval Unit} {w : World}

/-- A signal, or an exception with its place, is passed as it is. -/
theorem placed_firm (h : (rule w).1 = .error (.unwind u)) (firm : u.Firm) :
    ((rule.located site >>= fun _ => (return [] : Eval (List Value))) w).1 = .error (.unwind u) := by
  refine bind_error ?_
  show (rule.mapStop _ w).1 = _
  rw [mapStop_run, h]
  exact congrArg (Except.error ∘ Stop.unwind) (firm site)

/-- So is what ends everything. -/
theorem placed_final {stop : Stop} (h : (rule w).1 = .error stop) (final : stop.Final) :
    ((rule.located site >>= fun _ => (return [] : Eval (List Value))) w).1 = .error stop := by
  refine bind_error ?_
  show (rule.mapStop _ w).1 = _
  rw [mapStop_run, h]
  exact congrArg Except.error (located_final stop final)

end Placed

/-- A `try` bounds no signal. -/
theorem not_absorbs_try {body : Lambda} {handler : Option Handler} {otherwise finalizer : Option Lambda}
    {span : Span} {f : Frame} {t : Task} {s : Signal} :
    ¬Task.Absorbs (.operation (.tryBlock body handler otherwise finalizer span) f) t (.signal s) := by
  rintro (boundary | _ | _)
  cases boundary with
  | round _ round => exact nomatch round

/-- A `finally` part is reached by whatever leaves the parts before it. -/
theorem Runs.reaches_finalizer {body last : Lambda} {handler : Option Handler} {otherwise : Option Lambda}
    {span : Span} {f : Frame} {s : Signal} (h : outer.Runs inner) (keeps : outer.Keeps P)
    (task : outer.task = .operation (.tryBlock body handler otherwise (some last) span) f)
    (part : inner.task.frame.label ≠ "try finally") (ends : inner.EndsWith (.signal s)) :
    outer.EndsWith (.signal s) ∨ outer.Superseded inner ∨ outer.IsCutShort := by
  have outcome := h.outcome_eq
  obtain ⟨fuel, _, w⟩ := outer
  subst task
  obtain ⟨code, hw⟩ := keeps
  have lawful := Provenance.lawful_ofFuel (P := P) inner.fuel
  have here : (Task.operation (.tryBlock body handler otherwise (some last) span) f).frame.source = f.source := rfl
  let C : Conduct := { P.conduct (.operation (.tryBlock body handler otherwise (some last) span) f) with
    absorbs := Task.Absorbs (.operation (.tryBlock body handler otherwise (some last) span) f) }
  have catches (callable : Callable) (e : Exception) (some : handler.isSome) :
      C.absorbs (.call callable [] .block (f.labelled "try body")) (.exception e) := by
    obtain ⟨handler, rfl⟩ := Option.isSome_iff_exists.mp some
    exact .caught rfl
  have rule := follows_tryBlock (lawful.conduct _) (Provenance.admits_body here code)
    (Provenance.admits_handler here code rfl) (Provenance.admits_otherwise here code)
    (Provenance.admits_finalizer here code) (fun some callable e => .inl (catches callable e some))
    (fun _ t u label => .inr (.finalizer label)) w hw
  have comes {t : Task} {v : World} : Runner.Comes (fun r => r.perform
      (.operation (.tryBlock body handler otherwise (some last) span) f)) _ w t v ↔ _ := rule.comes_placed
  obtain passed | ⟨t, v, u, comes', label, ends'⟩ | ⟨stop, final, stops⟩ :=
    tryBlock_reaches (C := C) ⟨lawful.loop, (lawful.conduct _).keeps⟩ (Provenance.admits_body here code)
      (fun x hx => (Provenance.admits_handler here code rfl x hx).absorbing _) (Provenance.admits_otherwise here code)
      (Provenance.admits_finalizer here code last rfl) (fun some callable e => catches callable e some)
      (fun _ _ => not_absorbs_try) hw (comes.mp h.2) part ends
  · exact .inl ((congrArg Prod.fst outcome).trans (placed_firm passed (Unwind.firm_signal s)))
  · exact .inr (.inl ⟨⟨inner.fuel, t, v⟩, u, ⟨h.1, comes.mpr comes'⟩, .finalizer label part, ends'⟩)
  · exact .inr (.inr ⟨stop, (congrArg Prod.fst outcome).trans (placed_final stops final), final⟩)

/-- What a stage of a pipeline ends with reaches the pipeline. -/
theorem Runs.reaches_stage {stages : List Operation} {span : Span} {f : Frame} (h : outer.Runs inner)
    (keeps : outer.Keeps P) (task : outer.task = .operation (.pipeline stages span) f)
    (ends : inner.EndsWith u) (firm : u.Firm) :
    outer.EndsWith u ∨ outer.Superseded inner ∨ outer.IsCutShort := by
  have outcome := h.outcome_eq
  obtain ⟨fuel, _, w⟩ := outer
  subst task
  obtain ⟨code, hw⟩ := keeps
  have lawful := Provenance.lawful_ofFuel (P := P) inner.fuel
  have admits (op : Operation) (ho : op ∈ stages) (ports : Ports) :
      (P.conduct (.operation (.pipeline stages span) f)).admits (.operation op (f.withPorts ports)) :=
    Provenance.admits_operation (f := f.withPorts ports) rfl
      (Provenance.Admits.child (f := f) code (List.mem_map_of_mem ho))
  have absorbs (t : Task) (u : Unwind) : (P.conduct (.operation (.pipeline stages span) f)).absorbs t u :=
    .inr .pipeline
  have rule : Conduct.FollowsIn _ _ (fun _ => False) _ _ w :=
    follows_stages (lawful.conduct _) admits absorbs f.ports.input w hw
  have comes {t : Task} {v : World} :
      Runner.Comes (fun r => r.perform (.operation (.pipeline stages span) f)) _ w t v ↔ _ := rule.comes_placed
  obtain ⟨before, stage, after, g, split, same, result⟩ :=
    stages_reaches (lawful.conduct _) admits absorbs hw (comes.mp h.2) ends
  obtain passed | ⟨first, hf, g', v, u', comes', ends'⟩ | ⟨stop, final, stops⟩ := result
  · exact .inl ((congrArg Prod.fst outcome).trans (placed_firm passed firm))
  · obtain ⟨before, between, rfl⟩ := List.append_of_mem hf
    refine .inr (.inl ⟨⟨inner.fuel, .operation first g', v⟩, u', ⟨h.1, comes.mpr comes'⟩, ?_, ends'⟩)
    subst split
    rw [same]
    exact .stage
  · exact .inr (.inr ⟨stop, (congrArg Prod.fst outcome).trans (placed_final stops final), final⟩)

/-- **What an evaluation ends with passes the one that runs it**, unless that absorbs it, something overrides it, or
everything ends. -/
theorem Runs.reaches (h : outer.Runs inner) (keeps : outer.Keeps P) (ends : inner.EndsWith u) (firm : u.Firm)
    (through : ¬outer.task.Absorbs inner.task u) :
    outer.EndsWith u ∨ outer.Superseded inner ∨ outer.IsCutShort := by
  by_cases settles : outer.task.Settles inner.task
  · generalize task : outer.task = t at settles
    generalize task' : inner.task = t' at settles
    cases settles with
    | finalizer part =>
      cases u with
      | exception e =>
        rw [task, task'] at through
        exact absurd (.forgotten part) through
      | signal s => exact h.reaches_finalizer keeps task (task' ▸ part) ends
    | pipeline => exact h.reaches_stage keeps task ends firm
  · refine .inl ?_
    rw [EndsWith, h.outcome_eq]
    refine (h.follows keeps).passes inner.task inner.world u h.2 ends firm ?_
    exact fun absorbs => absorbs.elim through settles

/-- What is lost further in is lost. -/
theorem Lost.step {link : Task → Task → Prop} {next : Evaluation} (runs : outer.Runs next)
    (linked : link outer.task next.task) (h : next.Lost link inner) : outer.Lost link inner := by
  obtain ⟨above, below, way, lost⟩ := h
  exact ⟨above, below, .step runs linked way, lost⟩

/-- **The same along a whole way**, by induction on it. -/
theorem Leads.reaches {link : Task → Task → Prop} (way : outer.Leads link inner) (keeps : outer.Keeps P)
    (ends : inner.EndsWith u) (firm : u.Firm) (through : ∀ t t', link t t' → ¬t.Absorbs t' u) :
    outer.EndsWith u ∨ outer.Lost link inner := by
  induction way with
  | here => exact .inl ends
  | @step outer next inner runs linked rest ih =>
    obtain arrives | lost := ih (keeps.runs runs) ends
    · obtain passes | superseded | cut := runs.reaches keeps arrives firm (through _ _ linked)
      · exact .inl passes
      · exact .inr ⟨_, _, .here, runs, linked, rest, .inl superseded⟩
      · exact .inr ⟨_, _, .here, runs, linked, rest, .inr cut⟩
    · exact .inr (lost.step runs linked)

/-! ## Downwards -/

/-- **What an evaluation ends with is its own**, or that of one it runs. -/
theorem blamed {fuel : Nat} {t : Task} {w : World} (keeps : Evaluation.Keeps P ⟨fuel + 1, t, w⟩)
    (ends : EndsWith ⟨fuel + 1, t, w⟩ u) : (P.conduct t).Own u ∨
      ∃ inner u₀, Runs ⟨fuel + 1, t, w⟩ inner ∧ inner.EndsWith u₀ ∧ (P.conduct t).Permits inner.task u₀ u := by
  have rule := Provenance.follows_perform (Provenance.lawful_ofFuel fuel) keeps.admitted w keeps.world
  obtain own | ⟨t', v, u₀, comes, ends', permits⟩ := rule.blamed u (by
    rw [← Runner.run_ofFuel]
    exact ends)
  · exact .inl own
  · exact .inr ⟨⟨fuel, t', v⟩, u₀, ⟨rfl, comes⟩, ends', permits⟩

end Evaluation

end ValueShell
