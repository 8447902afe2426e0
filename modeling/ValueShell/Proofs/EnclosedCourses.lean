/-
  The courses that evaluations take.

  A `Course` is laid down beside the evaluator.  Here the two are brought together: every evaluation that runs inside
  of a unit is on a course of the session, with the frame that it runs in as the innermost one
  (`Session.course_encloses`), and from there the course leads on to the world that the evaluation ends in.

  It comes down to one rule and what it runs (`Evaluation.Runs.course`).  Most rules run code that is at home where they
  are themselves.  It runs in a part of their own frame, and until it starts they have changed what code at home there
  can change.  Two rules run code that is at home elsewhere, the call of a closure and the import of a module; for them
  it is known exactly in which frame and in which world this code starts.
-/
import ValueShell.Proofs.Courses
import ValueShell.Proofs.ReadyEvaluations

namespace ValueShell

open Eval Conduct

/-! ## Parts of a frame -/

/-- The frame differs from the other one in its label and its ports alone. -/
def Frame.PartOf (g f : Frame) : Prop := ∃ label ports, g = (f.labelled label).withPorts ports

theorem Frame.PartOf.self {f : Frame} : f.PartOf f := ⟨f.label, f.ports, rfl⟩

theorem Frame.PartOf.labelled {f : Frame} (label : String) : (f.labelled label).PartOf f := ⟨label, f.ports, rfl⟩

theorem Frame.PartOf.withPorts {f : Frame} (ports : Ports) : (f.withPorts ports).PartOf f := ⟨f.label, ports, rfl⟩

/-- What the task runs is at home where its own frame is: it calls no closure and imports no module. -/
def Task.StaysHome : Task → Prop
  | .operation (.useModule ..) _ | .call (.closure _) .. => False
  | _ => True

/-- A sequence that ends with an error does so in its first part, or after it. -/
theorem Eval.of_bind_run_error {α β : Type} {x : Eval α} {k : α → Eval β} {w : World} {stop : Stop}
    (ends : ((x >>= k) w).1 = .error stop) :
    (x w).1 = .error stop ∨ ∃ a w', x w = (.ok a, w') ∧ (k a w').1 = .error stop := by
  rw [bind_run] at ends
  rcases run : x w with ⟨other | a, w'⟩
  · rw [run] at ends
    exact .inl (congrArg Except.error (Except.error.inj ends))
  · rw [run] at ends
    exact .inr ⟨a, w', rfl, ends⟩

namespace Conduct

/-- Tasks are run in parts of the frame, and nothing else is asked. -/
def partsOf (f : Frame) : Conduct := { anything with admits := fun t => t.frame.PartOf f }

variable {r : Runner} {f : Frame} {w v : World} {t : Task}

section Parts

theorem admitsAll_partsOf (es : List Expr) : (partsOf f).AdmitsAll f es := fun _ _ => .self

theorem admitsBlock_partsOf (label : String) (body : Lambda) : (partsOf f).AdmitsBlock (f.labelled label) body :=
  fun _ _ => .labelled label

theorem admitsTargets_partsOf {g : Frame} (part : g.PartOf f) (targets : Targets) :
    (partsOf f).AdmitsTargets g targets := fun _ _ =>
  ⟨trivial, fun _ _ => ⟨fun _ _ => part, fun _ => trivial⟩⟩

variable (hr : (partsOf f).Lawful r)
include hr

/-- What an expression runs. -/
theorem follows_evaluate_parts (e : Expr) :
    (partsOf f).Follows r (partsOf f).Own (fun r => r.evaluate e f) fun _ => True := by
  refine follows_located trivial ?_
  cases e with
  | literal text span => exact follows_pure trivial
  | reference ref span =>
    refine follows_bind (follows_readVariable ref.ns ref.name) fun v _ => ?_
    split
    · exact follows_ofExcept fun _ _ => trivial
    · exact follows_pure trivial
  | index head brackets span =>
    refine follows_then (follows_expr hr .self) fun heads => follows_foldlM trivial fun vs b _ _ => ?_
    exact (follows_indexAll hr (fun v _ => v.carries_all fun _ => trivial) (admitsAll_partsOf b.items) trivial).any
  | list items span =>
    exact follows_then (follows_exprs hr (admitsAll_partsOf items)) fun _ => follows_pure trivial
  | map pairs span =>
    exact follows_then (follows_mapOnto hr (fun _ _ => ⟨.self, .self⟩) (fun _ _ => ⟨trivial, trivial⟩) nofun) fun _ =>
      follows_pure trivial
  | lambda l => exact follows_then (follows_close l false) fun _ => follows_pure trivial
  | capture op span => exact (follows_capture hr fun ports => .withPorts ports).any
  | compound parts span =>
    exact follows_then (follows_compoundOnto hr (admitsAll_partsOf parts) _) fun _ => follows_pure trivial
  | sequence parts span => exact (follows_exprs hr (admitsAll_partsOf parts)).any

/-- What an operation runs, if it imports nothing. -/
theorem follows_execute_parts {op : Operation} (home : (Task.operation op f).StaysHome) :
    (partsOf f).Follows r (partsOf f).Own (fun r => r.execute op f) fun _ => True := by
  refine follows_located trivial ?_
  cases op with
  | chunk ops span => exact follows_chunk hr fun _ _ => .self
  | pipeline ops span => exact follows_stages hr (fun _ _ ports => .withPorts ports) (fun _ _ => trivial) _
  | call head args span =>
    exact follows_callCommand hr (fun _ _ => .self) (admitsAll_partsOf args) fun _ _ _ _ => .self
  | assign targets values span =>
    exact follows_assignment hr (admitsTargets_partsOf .self targets) (admitsAll_partsOf values)
  | conditional branches otherwise span =>
    exact follows_conditional hr (fun l _ => admitsBlock_partsOf _ l) fun b _ =>
      ⟨.labelled _, admitsBlock_partsOf _ b.body⟩
  | whileLoop condition body span =>
    exact follows_whileLoop hr (.labelled _) (admitsBlock_partsOf _ body) fun _ _ _ => trivial
  | forLoop target iterable body otherwise span =>
    exact follows_forLoop hr (admitsTargets_partsOf .self target) (admitsTargets_partsOf (.labelled _) target) .self
      trivial (admitsBlock_partsOf _ body) (fun l _ => admitsBlock_partsOf _ l) fun _ _ _ => trivial
  | tryBlock body handler otherwise finalizer span =>
    exact follows_tryBlock hr (admitsBlock_partsOf _ body)
      (fun h _ => ⟨fun t _ => admitsTargets_partsOf (.labelled _) t, admitsBlock_partsOf _ h.body⟩)
      (fun l _ => admitsBlock_partsOf _ l) (fun l _ => admitsBlock_partsOf _ l) (fun _ _ _ => trivial)
      fun _ _ _ _ => trivial
  | connective stopAt args span => exact follows_connective hr stopAt .bool (admitsAll_partsOf args)
  | define name body span => exact follows_define fun _ _ => trivial
  | useModule name path span => exact home.elim
  | delete targets span =>
    exact follows_delete hr fun e _ => ⟨admitsAll_partsOf e.indices, fun _ => trivial⟩

/-- What a call runs, if it is none of a closure. -/
theorem follows_callFunction_parts {callable : Callable} {args : List Value} {mode : CallMode}
    (home : (Task.call callable args mode f).StaysHome) :
    (partsOf f).Follows r (partsOf f).Own (fun r => r.callFunction callable args mode f) fun _ => True := by
  cases callable with
  | closure c => exact home.elim
  | builtin b =>
    exact follows_builtin hr b (fun v _ => v.carries_all fun _ => trivial) (fun _ _ _ _ => .self)
      fun _ _ _ _ _ => trivial
  | external name => exact follows_runExternal name args

end Parts

/-! ## What runs elsewhere -/

/-- A load that exits is the load of a module that nothing is known of. -/
theorem fetchModule_exits {path : String} {code : Int} (exits : (r.fetchModule f path w).1 = .error (.exit code)) :
    w.HasNoEntry path ∧ (r.load f path ⟨w.store.scopes.size⟩ (w.beginLoad path)).1 = .error (.exit code) := by
  rw [Runner.fetchModule, get_bind_run, ModuleCache.request] at exits
  cases entry : Table.find? w.modules path with
  | none =>
    refine ⟨entry, ?_⟩
    simp only [entry, Runner.loadNew_run] at exits
    rcases run : r.load f path ⟨w.store.scopes.size⟩ (w.beginLoad path) with ⟨stop | _, w'⟩
    · rw [run] at exits
      cases stop <;> cases exits
      rfl
    · rw [run] at exits
      cases exits
  | some found =>
    simp only [entry] at exits
    cases found with
    | loaded ns => cases exits
    | loading ns waiting =>
      cases own : w.modules.waitsOnSelf path f.loading <;> simp only [own] at exits <;> cases exits

/-- An import that exits does so as the module that it asks for is fetched. -/
theorem useModule_exits {name target : String} {code : Int}
    (exits : (r.useModule name target f w).1 = .error (.exit code)) :
    ∃ path, resolvePath f.source target = .ok path ∧ (r.fetchModule f path w).1 = .error (.exit code) := by
  obtain imports | ⟨ns, w', -, binds⟩ := of_bind_run_error exits
  · cases resolved : resolvePath f.source target with
    | error fault =>
      rw [Runner.importModule, resolved] at imports
      cases imports
    | ok path =>
      rw [Runner.importModule, resolved, ofExcept_ok, pure_bind] at imports
      obtain fetches | ⟨ns, w', -, notes⟩ := of_bind_run_error imports
      · exact ⟨path, rfl, fetches⟩
      · cases notes
  · cases binds

section Entries

variable (loop : ∃ fuel, r.loop = (Runner.ofFuel fuel).loop)
include loop

/-- **The call of a closure runs its body**, in the frame inside, after its arguments are bound. -/
theorem comes_callClosure {c : Closure} {args : List Value} {mode : CallMode}
    (comes : Runner.Comes (fun r => r.callClosure c args mode f) r w t v) :
    t = .operation c.lambda.body (f.inside c mode ⟨w.store.scopes.size⟩) ∧
      bindArguments ⟨w.store.scopes.size⟩ c.lambda args { w with store := (w.store.newScope []).2 } = (.ok (), v) := by
  have carries (w : World) : w.Carries anything.good := World.carries_all (fun _ => trivial) w
  have scope : anything.FollowsIn r anything.Own (fun _ => updateStore fun s => s.newScope []) _ w :=
    follows_newScope (fun _ => []) w (carries w)
  obtain comes | ⟨scope, w₁, run, comes⟩ := scope.comes_bind comes
  · exact (not_comes_const _ comes).elim
  cases run
  have arguments : anything.FollowsIn r anything.Own (fun _ => bindArguments ⟨w.store.scopes.size⟩ c.lambda args) _
      { w with store := (w.store.newScope []).2 } :=
    follows_bindArguments _ c.lambda (fun v _ => v.carries_all fun _ => trivial) _ (carries _)
  obtain comes | ⟨⟨⟩, w₂, bound, comes⟩ := arguments.comes_bind comes
  · exact (not_comes_const _ comes).elim
  let inside := f.inside c mode ⟨w.store.scopes.size⟩
  have body := anything_operation loop c.lambda.body inside w₂
  have entered : Runner.Comes (fun r => r.operation c.lambda.body inside) r w₂ t v := by
    unfold Runner.runBody at comes
    split at comes
    · exact body.comes_of (fun outcome => (returning (fun _ => outcome) w₂).1) comes
    · exact comes
  obtain ⟨task, world⟩ := comes_operation.mp entered
  subst world
  exact ⟨task, bound⟩

/-- A load that begins runs the code of the module, as it starts. -/
theorem comes_load {path : String} (new : w.HasNoEntry path)
    (comes : Runner.Comes (fun r => r.load f path ⟨w.store.scopes.size⟩) r (w.beginLoad path) t v) :
    ∃ source op, f.Starts w path source op ∧ t = .operation op (f.startModule w source path) ∧
      v = w.startModule path op := by
  obtain ⟨stop, w', ends⟩ | ⟨source, op, starts⟩ := Runner.load_starts f new
  · -- it ends the same way whoever runs it
    exact (not_every_code _ fun code => (congrArg Prod.fst (ends _)).symm.trans (comes code)).elim
  · let inside := f.startModule w source path
    have code := anything_operation loop op inside (w.startModule path op)
    have runs : Runner.Comes (fun r => r.operation op inside) r (w.startModule path op) t v :=
      code.comes_of (fun outcome => (enclosed (inside.site op.span) (fun _ => outcome) (w.startModule path op)).1)
        fun code => (congrArg Prod.fst (Runner.load_run starts _)).symm.trans (comes code)
    obtain ⟨task, world⟩ := comes_operation.mp runs
    exact ⟨source, op, starts, task, world⟩

/-- **The import of a module runs its code**, in the frame and the world in which the code of a module starts. -/
theorem comes_useModule {name target : String} (comes : Runner.Comes (fun r => r.useModule name target f) r w t v) :
    ∃ path source op, f.Starts w path source op ∧ t = .operation op (f.startModule w source path) ∧
      v = w.startModule path op := by
  obtain ⟨path, resolved, exits⟩ := useModule_exits (comes 0)
  refine ⟨path, comes_load loop (fetchModule_exits exits).1 fun code => ?_⟩
  obtain ⟨path', resolved', exits'⟩ := useModule_exits (comes code)
  cases resolved.symm.trans resolved'
  exact (fetchModule_exits exits').2

end Entries

end Conduct

/-! ## From the outside to the inside -/

namespace Evaluation

variable {s : Session} {outer inner e : Evaluation}

/-- What a rule does before it runs something is part of what it does. -/
theorem Runs.evolves {home : Option ScopeId} {loading : List String} (h : outer.Runs inner)
    (keeps : outer.Keeps .anywhere) (stays : ∀ r : Runner, r.Contained → Stays home loading (r.perform outer.task)) :
    Evolves .cut home loading outer.world inner.world := by
  -- the inner evaluation is replaced by the end of everything, so the rule ends where it starts
  have contained : ((Runner.ofFuel inner.fuel).answering inner.task inner.world
      (.error (.exit 0), inner.world)).Contained :=
    Runner.answering_contained (fun _ _ => .cut _) (Runner.ofFuel_contained _)
  have run := stays _ contained outer.world
  rw [h.perform_answering keeps] at run
  exact run

/-- Code runs in a frame, and then more of it in a part of the frame. -/
theorem course_part {f g : Frame} {w v : World} {ending : Ending} (fs : List Frame) (part : g.PartOf f)
    (run : Evolves ending (some f.localScope) f.loading w v) : s.Course ⟨f :: fs, w⟩ ⟨g :: f :: fs, v⟩ := by
  obtain ⟨label, ports, rfl⟩ := part
  exact .tail (.single (.code fs run)) (.part f fs v label ports)

/-- **From a rule to what it runs** there is a course. -/
theorem Runs.course (h : outer.Runs inner) (keeps : outer.Keeps .anywhere) (fs : List Frame) :
    ∃ fs', s.Course ⟨outer.task.frame :: fs, outer.world⟩ ⟨inner.task.frame :: fs', inner.world⟩ := by
  obtain ⟨fuel, task, w⟩ := outer
  obtain ⟨left, t, v⟩ := inner
  have comes : Runner.Comes (fun r => r.perform task) (.ofFuel left) w t v := h.2
  have loop : ∃ fuel, (Runner.ofFuel left).loop = (Runner.ofFuel fuel).loop := ⟨left, rfl⟩
  have lawful (f : Frame) : (partsOf f).Lawful (.ofFuel left) := lawful_of_true (fun _ => trivial) loop
  have carries (f : Frame) : w.Carries (partsOf f).good := World.carries_all (fun _ => trivial) w
  cases task with
  | expr e f =>
    have evolves := h.evolves keeps fun r hr => Runner.stays_evaluate hr e f
    have follows := follows_evaluate_parts (lawful f) e w (carries f)
    exact ⟨f :: fs, course_part fs (follows.admitted t v comes).1 evolves⟩
  | operation op f =>
    by_cases home : (Task.operation op f).StaysHome
    · have evolves := h.evolves keeps fun r hr => stays_bind (Runner.stays_execute hr op f) fun _ => stays_pure _
      have follows := follows_execute_parts (lawful f) home w (carries f)
      exact ⟨f :: fs, course_part fs (follows.admitted t v (comes_valueless follows comes)).1 evolves⟩
    · cases op with
      | useModule name path span =>
        have imports : anything.FollowsIn (.ofFuel left) anything.Own (fun r => r.useModule name path f) _ w :=
          follows_useModule (lawful_of_true (fun _ => trivial) loop) (admitsModules_anything f) name path w
            (World.carries_all (fun _ => trivial) w)
        obtain ⟨path, source, op, starts, rfl, rfl⟩ := comes_useModule loop (imports.comes_placed.mp comes)
        exact ⟨f :: fs, .single (.load fs starts)⟩
      | _ => exact absurd trivial home
  | call callable args mode f =>
    by_cases home : (Task.call callable args mode f).StaysHome
    · have evolves := h.evolves keeps fun r hr =>
        stays_bind (Runner.stays_callFunction hr callable args mode f (some f.localScope)) fun _ => stays_pure _
      have follows := follows_callFunction_parts (lawful f) home w (carries f)
      exact ⟨f :: fs, course_part fs (follows.admitted t v (comes_valueless follows comes)).1 evolves⟩
    · cases callable with
      | closure c =>
        have calls : anything.FollowsIn (.ofFuel left) anything.Own (fun r => r.callClosure c args mode f) _ w :=
          follows_callClosure (lawful_of_true (fun _ => trivial) loop) (fun v _ => v.carries_all fun _ => trivial)
            (fun _ => trivial) (fun _ _ => trivial) w (World.carries_all (fun _ => trivial) w)
        obtain ⟨rfl, bound⟩ := comes_callClosure loop (comes_valueless calls comes)
        exact ⟨f :: fs, Session.course_call c mode fs bound⟩
      | _ => exact absurd trivial home

/-- **From an evaluation to every one inside of it**, by induction on the way to it. -/
theorem Leads.course {link : Task → Task → Prop} (way : outer.Leads link inner) (keeps : outer.Keeps .anywhere)
    (fs : List Frame) :
    ∃ fs', s.Course ⟨outer.task.frame :: fs, outer.world⟩ ⟨inner.task.frame :: fs', inner.world⟩ := by
  induction way generalizing fs with
  | here => exact ⟨fs, .refl⟩
  | step runs _ _ ih =>
    obtain ⟨fs₁, first⟩ := runs.course (s := s) keeps fs
    obtain ⟨fs₂, rest⟩ := ih (keeps.runs runs) fs₁
    exact ⟨fs₂, first.trans rest⟩

/-- **From an evaluation to the end of it** there is a course, too. -/
theorem course_outcome (e : Evaluation) (fs : List Frame) :
    s.Course ⟨e.task.frame :: fs, e.world⟩ ⟨e.task.frame :: fs, e.outcome.2⟩ := by
  obtain ⟨fuel, task, w⟩ := e
  have contained := Runner.ofFuel_contained fuel
  refine .single (.code (e := .of (outcome ⟨fuel, task, w⟩).1) fs ?_)
  cases task with
  | expr e f => exact contained.expr e f w
  | operation op f => exact stays_bind (contained.operation op f) (fun _ => stays_pure _) w
  | call callable args mode f =>
    exact stays_bind (contained.call callable args mode f (some f.localScope)) (fun _ => stays_pure _) w

end Evaluation

namespace Session

variable {s t : Session} {fuel : Nat} {op : Operation} {source : Source} {ports : Ports} {e : Evaluation}

/-- **Every evaluation inside of a unit is on a course of the session**, with its frame as the innermost one.  From
there a course leads on to the world that it ends in, and to each evaluation inside of it. -/
theorem course_encloses (later : s.Later t) (inside : (t.evaluation fuel op source ports).Encloses e) :
    ∃ fs, s.Course ⟨[], s.world⟩ ⟨e.task.frame :: fs, e.world⟩ ∧
      s.Course ⟨e.task.frame :: fs, e.world⟩ ⟨e.task.frame :: fs, e.outcome.2⟩ ∧
      ∀ inner, e.Encloses inner →
        ∃ fs', s.Course ⟨e.task.frame :: fs, e.world⟩ ⟨inner.task.frame :: fs', inner.world⟩ := by
  have unit : (t.evaluation fuel op source ports).Keeps .anywhere := ⟨trivial, World.carries_all (fun _ => trivial) _⟩
  have starts : s.Course ⟨[], s.world⟩ ⟨[(t.evaluation fuel op source ports).task.frame], t.entered⟩ :=
    later.course_unit source ports
  obtain ⟨fs, enters⟩ := inside.course (s := s) unit []
  refine ⟨fs, starts.trans enters, e.course_outcome fs, ?_⟩
  intro inner way
  exact way.course (unit.leads inside) fs

end Session

end ValueShell
