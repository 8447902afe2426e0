/-
  What `del` removes.

  The compiler lets `del x` pass if its table has `x` among the names of the innermost scope, and the evaluator
  then removes `x` from the local scope without a word, whether it is there or not.  The two agree where the code
  is orderly and the name is the scope's own: every `del` that is run finds its name bound, and afterwards no
  reading finds the variable (`deletion_effective`).

  They do not agree on a name that is captured.  The table counts a name as local once it is assigned, but the
  assignment goes to the captured variable, and so the local scope never has it.  Then `del` passes the check
  and removes nothing (`captured_not_deleted`).
-/
import ValueShell.Proofs.ReadyEvaluations

namespace ValueShell

open Eval

/-! ## The arguments of one `del` -/

/-- A name is among those that the table counts as local when its turn comes. -/
theorem Deletion.ScopedEach.split {early : String → Prop} {t t' : ScopeTable} {before after : List Deletion}
    {name : String} (h : Deletion.ScopedEach early t (before ++ .localName name :: after) t') :
    ∃ mid, Deletion.ScopedEach early t before mid ∧ name ∈ mid.innermost := by
  induction before generalizing t with
  | nil =>
    cases h with
    | localName known _ => exact ⟨t, .nil, known⟩
  | cons d before ih =>
    cases h with
    | localName known rest =>
      obtain ⟨mid, each, here⟩ := ih rest
      exact ⟨mid, .localName known each, here⟩
    | environment rest =>
      obtain ⟨mid, each, here⟩ := ih rest
      exact ⟨mid, .environment each, here⟩
    | element text base known all rest =>
      obtain ⟨mid, each, here⟩ := ih rest
      exact ⟨mid, .element text base known all each, here⟩

/-- **When its turn comes**, the frame still finds the names that were known before. -/
theorem Task.Ready.deletion {g : Ground} {before after : List Deletion} {name : String} {span : Span} {f : Frame}
    {v w : World} {fuel : Nat}
    (ready : (Task.operation (.delete (before ++ .localName name :: after) span) f).Ready g v)
    (turn : (Runner.ofFuel fuel).delete f before v = (.ok (), w)) (obeyed : g.Obeyed w.journal) :
    ∃ homes, w.Sound g homes ∧ ∃ t, f.Covers g homes t w ∧ name ∈ t.innermost := by
  obtain ⟨homes, sound, finds⟩ := ready
  cases finds with
  | operation names covers =>
    cases names with
    | delete each =>
      obtain ⟨mid, first, known⟩ := each.split
      have run := (Runner.triple_delete (Runner.ofFuel_faithful g fuel) before first).keeps v
        (by rwa [turn]) sound covers
      rw [turn] at run
      exact ⟨homes, run.1, mid, run.2 () rfl, known⟩

/-- **What is left of a name** when it is removed from the local scope: the variable above, or the builtin. -/
theorem Frame.find?_unbind {f : Frame} {s : Store} (known : f.localScope.index < s.scopes.size)
    (above : f.upScope ≠ f.localScope) (builtins : f.setting.builtins ≠ f.localScope) (name : String) :
    f.find? (s.unbind f.localScope name) "" name =
      ((s.find? f.upScope name).or (s.find? f.setting.builtins name)).map .cell := by
  have removed : (s.unbind f.localScope name).find? f.localScope name = none := by
    rw [Store.find?, Store.scope_unbind_self _ _ known, Table.find?_erase, if_pos rfl]
  have kept (other : ScopeId) (h : other ≠ f.localScope) :
      (s.unbind f.localScope name).find? other name = s.find? other name := by
    rw [Store.find?, Store.scope_unbind_of_ne _ _ h.symm, Store.find?]
  show (f.findPlain? _ name).map Place.cell = _
  rw [Frame.findPlain?, removed, kept _ above, kept _ builtins]
  rfl

theorem Runner.delete_localName (r : Runner) (f : Frame) (name : String) (w : World) :
    r.delete f [.localName name] w = (.ok (), { w with store := w.store.unbind f.localScope name }) := rfl

/-- **The variable is deleted**: the frame had it in its local scope, and a reading that found it before does not
find it any more. -/
structure Frame.Loses (f : Frame) (name : String) (w w' : World) : Prop where
  bound : w.store.Binds f.localScope name
  gone : ∀ place, f.find? w.store "" name = some place → f.find? w'.store "" name ≠ some place

namespace Session

variable {early : String → Prop} {s : Session} {fuel : Nat} {op : Operation} {source : Source} {ports : Ports}

/-- **When a local name is deleted**, in the middle of any run of orderly code, it is bound in the local scope, unless
it is captured from above or is a builtin's that code takes early.  What a reading finds afterwards is what is above,
or else the builtin.  So a name that is neither is deleted. -/
theorem deletion_effective (reached : s.Reached early) (compiled : s.compile source = .ok op)
    (orderly : op.Orderly early) {left : Nat} {before after : List Deletion} {name : String} {span : Span} {f : Frame}
    {v w : World} (inside : (s.evaluation fuel op source ports).Encloses
      ⟨left + 1, .operation (.delete (before ++ .localName name :: after) span) f, v⟩)
    (turn : (Runner.ofFuel left).delete f before v = (.ok (), w))
    (modules : ∀ path code, .running path code ∈ w.journal → code.Orderly early) :
    (¬w.store.Binds f.upScope name → ¬s.TakesEarly early name → w.store.Binds f.localScope name) ∧
      ∃ w', (Runner.ofFuel left).delete f [.localName name] w = (.ok (), w') ∧
        f.find? w'.store "" name =
          ((w.store.find? f.upScope name).or (w.store.find? f.setting.builtins name)).map .cell ∧
        (¬w.store.Binds f.upScope name → ¬w.store.Binds f.setting.builtins name → f.Loses name w w') := by
  have grows : Grows (some f.localScope) v w := by
    have run := (Runner.stays_delete (Runner.ofFuel_contained left) f before v).grows
    rwa [turn] at run
  have ready := reached.ready compiled orderly inside (Ground.Obeyed.before grows modules)
  obtain ⟨homes, sound, t, covers, known⟩ := ready.deletion turn modules
  have apart : f.setting.builtins ≠ f.localScope := fun same => by
    rw [covers.builtins] at same
    exact sound.sealed (same ▸ covers.home)
  have remains := Frame.find?_unbind covers.known covers.ne.symm apart name
  have found := covers.inner name known
  refine ⟨fun notAbove notTaken => ?_, _, Runner.delete_localName _ f name w, remains,
    fun notAbove notBuiltin => ⟨?_, fun place _ => ?_⟩⟩
  · refine found.resolve_right fun other => other.elim notAbove fun taken => ?_
    exact notTaken ⟨Table.mem_names.mp taken.1, taken.2⟩
  · refine found.resolve_right fun other => other.elim notAbove fun taken => notBuiltin ?_
    rw [covers.builtins]
    exact sound.binds_builtin.mpr taken.1
  · rw [remains, Option.not_isSome_iff_eq_none.mp notAbove, Option.not_isSome_iff_eq_none.mp notBuiltin]
    exact nofun

/-- What is called where a lambda is the head of a command. -/
theorem callable_lambda (fuel : Nat) (l : Lambda) (f : Frame) (w : World) :
    (Runner.ofFuel (fuel + 1)).callable (.lambda l) f w = close f l false w := rfl

/-- In `x = 1; del x` the variable is deleted. -/
theorem deletion_effective_global :
    let s := bare
    let source := Source.interactive "x = 1; del x"
    ∃ op span f w w', s.compile source = .ok op ∧
      (s.evaluation 9 op source .standard).Encloses ⟨8, .operation (.delete [.localName "x"] span) f, w⟩ ∧
      (Runner.ofFuel 7).delete f [.localName "x"] w = (.ok (), w') ∧ f.Loses "x" w w' := by
  intro s source
  let assigned : Operation := .assign ⟨[.named "" "x" ⟨0, 1⟩], none, ⟨0, 1⟩⟩ [.literal "1" ⟨4, 5⟩] ⟨0, 5⟩
  have compiled : s.compile source =
      .ok (.chunk [assigned, .delete [.localName "x"] ⟨7, 12⟩] ⟨0, 12⟩) := by cbv
  let f := s.frame source .standard (s.world.store.newScope []).1
  let w := ((Runner.ofFuel 8).chunk f [assigned] s.entered).2
  have ran : (Runner.ofFuel 8).chunk f [assigned] s.entered = (.ok (), w) := ran_of_isOk (by decide +kernel)
  have inside : (s.evaluation 9 (.chunk [assigned, .delete [.localName "x"] ⟨7, 12⟩] ⟨0, 12⟩) source .standard).Encloses
      ⟨8, .operation (.delete [.localName "x"] ⟨7, 12⟩) f, w⟩ := .step (Evaluation.runs_next ran) trivial .here
  have orderly : (Operation.chunk [assigned, .delete [.localName "x"] ⟨7, 12⟩] ⟨0, 12⟩).Orderly fun _ => False := by
    refine .chunk fun op hop => ?_
    simp only [List.mem_cons, List.not_mem_nil, or_false] at hop
    rcases hop with rfl | rfl
    · refine .assign (List.forall_mem_nil _) (fun t ht => ?_) fun e he => ?_
      · rw [List.mem_singleton.mp ht]
        exact List.forall_mem_nil _
      · rw [List.mem_singleton.mp he]
        exact .literal
    · exact .delete fun e he => by cases List.mem_singleton.mp he
  have quiet : w.journal = [] := List.isEmpty_iff.mp (by decide +kernel)
  have modules (path : String) (code : Operation) (ran : .running path code ∈ w.journal) :
      code.Orderly fun _ => False := by
    rw [quiet] at ran
    cases ran
  have turn : (Runner.ofFuel 7).delete f [] w = (.ok (), w) := rfl
  obtain ⟨-, w', deletes, -, loses⟩ := deletion_effective .start compiled orderly
    (show (s.evaluation 9 _ source .standard).Encloses
      ⟨7 + 1, .operation (.delete ([] ++ .localName "x" :: []) ⟨7, 12⟩) f, w⟩ from inside) turn modules
  exact ⟨_, _, f, w, w', compiled, inside, deletes, loses (by decide +kernel) (by decide +kernel)⟩

/-- In `x = 1; { x = 2; del x; put $x }` the table counts `x` as local to the block, and the assignment goes to the
captured variable.  It is not bound locally, and a reading finds the same variable before and after. -/
theorem captured_not_deleted :
    let s := bare
    let source := Source.interactive "x = 1; \x7b x = 2; del x; put $x \x7d"
    ∃ op span f w w' place, s.compile source = .ok op ∧
      (s.evaluation 9 op source .standard).Encloses ⟨5, .operation (.delete [.localName "x"] span) f, w⟩ ∧
      (Runner.ofFuel 4).delete f [.localName "x"] w = (.ok (), w') ∧ ¬w.store.Binds f.localScope "x" ∧
      f.find? w.store "" "x" = some place ∧ f.find? w'.store "" "x" = some place := by
  intro s source
  let first : Operation := .assign ⟨[.named "" "x" ⟨0, 1⟩], none, ⟨0, 1⟩⟩ [.literal "1" ⟨4, 5⟩] ⟨0, 5⟩
  let again : Operation := .assign ⟨[.named "" "x" ⟨9, 10⟩], none, ⟨9, 10⟩⟩ [.literal "2" ⟨13, 14⟩] ⟨9, 14⟩
  let deletes : Operation := .delete [.localName "x"] ⟨16, 21⟩
  let puts : Operation := .call (.name "put") [.reference ⟨false, "", "x"⟩ ⟨27, 29⟩] ⟨23, 29⟩
  let block : Lambda := ⟨[], none, false, .chunk [again, deletes, puts] ⟨8, 30⟩, ⟨7, 31⟩⟩
  have compiled : s.compile source =
      .ok (.chunk [first, .call (.value (.lambda block)) [] ⟨7, 31⟩] ⟨0, 31⟩) := by cbv
  -- the worlds before the block is made, before it is called, and before its two operations
  let f := s.frame source .standard (s.world.store.newScope []).1
  let w₁ := ((Runner.ofFuel 8).chunk f [first] s.entered).2
  have ran₁ : (Runner.ofFuel 8).chunk f [first] s.entered = (.ok (), w₁) := ran_of_isOk (by decide +kernel)
  let c : Closure := ⟨w₁.store.nextIdentity, block, ⟨w₁.store.scopes.size⟩, source, false⟩
  let w₂ : World := { w₁ with store := (w₁.store.overlay f.upScope f.localScope).2.newIdentity.2 }
  have made : (Runner.ofFuel 7).callable (.lambda block) f w₁ = (.ok (.closure c), w₂) :=
    (callable_lambda 6 block f w₁).trans (close_run f block false w₁)
  let g := f.inside c .command ⟨w₂.store.scopes.size⟩
  let w₃ := (bindArguments ⟨w₂.store.scopes.size⟩ block [] { w₂ with store := (w₂.store.newScope []).2 }).2
  have bound : bindArguments ⟨w₂.store.scopes.size⟩ block [] { w₂ with store := (w₂.store.newScope []).2 } =
    (.ok (), w₃) := ran_of_isOk (by decide +kernel)
  let w₄ := ((Runner.ofFuel 5).chunk g [again] w₃).2
  have ran₂ : (Runner.ofFuel 5).chunk g [again] w₃ = (.ok (), w₄) := ran_of_isOk (by decide +kernel)
  have inside : (s.evaluation 9 (.chunk [first, .call (.value (.lambda block)) [] ⟨7, 31⟩] ⟨0, 31⟩) source
      .standard).Encloses ⟨5, .operation deletes g, w₄⟩ :=
    .step (Evaluation.runs_next ran₁) trivial (.step (Evaluation.runs_called made) trivial
      (.step (Evaluation.runs_body bound) trivial (.step (Evaluation.runs_next ran₂) trivial .here)))
  obtain ⟨cell, before⟩ := Option.isSome_iff_exists.mp
    (by decide +kernel : (g.findPlain? w₄.store "x").isSome = true)
  have after : g.findPlain? (w₄.store.unbind g.localScope "x") "x" = g.findPlain? w₄.store "x" := by decide +kernel
  exact ⟨_, _, g, w₄, _, .cell cell, compiled, inside, Runner.delete_localName _ g "x" w₄, by decide +kernel,
    Frame.find?_of_plain before, Frame.find?_of_plain (after.trans before)⟩

end Session

end ValueShell
