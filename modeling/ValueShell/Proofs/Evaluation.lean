/-
  Every evaluation only evolves the world.

  `Evolution` says what a run can do to the world; here each rule of the evaluator is shown to do no
  more, given a runner for what is inside that does no more.  An operation or an expression has the
  local scope of its frame as home.  A call needs no home: it binds names in its own fresh scope only,
  so it can stand for a step of code with any home, and with none.

  `ofFuel_contained` closes the circle, by induction on the fuel.
-/
import ValueShell.Proofs.Evolution

namespace ValueShell

open Eval

/-! ## Changes of elements are assignments -/

/-- Replacing an element assigns the whole with the element replaced. -/
theorem Cell.assignElement_eq_ok {cell cell' : Cell} {path : List Value} {v : Value}
    (h : cell.assignElement path v = .ok cell') :
    ∃ whole, cell.value.setPath path v = .ok whole ∧ cell.assign whole = .ok cell' := by
  unfold Cell.assignElement at h
  cases hp : cell.value.setPath path v with
  | error e => rw [hp] at h; exact nomatch h
  | ok whole =>
    rw [hp] at h
    change (cell.assign whole).mapError ElementError.whole = _ at h
    cases ha : cell.assign whole with
    | error e => rw [ha] at h; exact nomatch h
    | ok cell'' =>
      rw [ha] at h
      cases h
      exact ⟨whole, rfl, ha⟩

/-- Removing an element assigns the whole without it, unless there is no index at all. -/
theorem Cell.removeElement_eq_ok {cell cell' : Cell} {path : List Value}
    (h : cell.removeElement path = .ok cell') :
    path = [] ∧ cell' = cell ∨
      ∃ whole, cell.value.removePath path = .ok whole ∧ cell.assign whole = .ok cell' := by
  unfold Cell.removeElement at h
  split at h
  · next he =>
    cases h
    exact .inl ⟨List.isEmpty_iff.mp he, rfl⟩
  · right
    cases hp : cell.value.removePath path with
    | error e => rw [hp] at h; exact nomatch h
    | ok whole =>
      rw [hp] at h
      change (cell.assign whole).mapError ElementError.whole = _ at h
      cases ha : cell.assign whole with
      | error e => rw [ha] at h; exact nomatch h
      | ok cell'' =>
        rw [ha] at h
        cases h
        exact ⟨whole, rfl, ha⟩

/-- A load waits for itself, so an import inside of it does not wait for it. -/
theorem ModuleCache.waitsOnSelf_of_mem (cache : ModuleCache) {path : String}
    {loading : List String} (h : path ∈ loading) : cache.waitsOnSelf path loading = true := by
  rw [ModuleCache.waitsOnSelf, ModuleCache.search, if_pos (List.contains_iff_mem.mpr h)]

/-- **A runner whose evaluations only evolve the world.** -/
structure Runner.Contained (r : Runner) : Prop where
  operation : ∀ op f, Stays (some f.localScope) f.loading (r.operation op f)
  expr : ∀ e f, Stays (some f.localScope) f.loading (r.expr e f)
  call : ∀ callable args mode f home, Stays home f.loading (r.call callable args mode f)
  loop : ∀ {home loading step}, Stays home loading step → Stays home loading (r.loop step)

namespace Eval

variable {home : Option ScopeId} {loading : List String}

/-! ## Ports -/

theorem stays_takeEach {step : Value → Eval Bool} (h : ∀ v, Stays home loading (step v))
    (q : QueueId) (count : Nat) : Stays home loading (takeEach q step count) := by
  induction count with
  | zero => exact stays_pure _
  | succ count ih =>
    refine stays_bind (stays_updateStreams _) fun next => ?_
    cases next with
    | none => exact stays_pure _
    | some v =>
      refine stays_bind (h v) fun goesOn => ?_
      split
      · exact ih
      · exact stays_pure _

theorem stays_eachInput {step : Value → Eval Bool} (ports : Ports)
    (h : ∀ v, Stays home loading (step v)) : Stays home loading (eachInput ports step) := by
  unfold eachInput
  split
  · exact stays_pure _
  · exact stays_get fun w => stays_takeEach h _ _

/-! ## Names -/

theorem stays_readVariable (f : Frame) (ns name : String) :
    Stays home loading (readVariable f ns name) := by
  refine stays_get fun w => ?_
  split
  · exact stays_pure _
  · exact stays_fault _

theorem stays_findCommand (f : Frame) (name : String) :
    Stays home loading (findCommand f name) := by
  unfold findCommand
  refine stays_get fun w => ?_
  split
  · exact stays_pure _
  · split
    · exact stays_pure _
    · exact stays_fault _

theorem stays_assign (c : CellId) (v : Value) :
    Stays home loading (tryCell c fun cell => cell.assign v) :=
  stays_tryCell fun _ _ h => .inr ⟨v, h⟩

theorem stays_assignElement (c : CellId) (path : List Value) (v : Value) :
    Stays home loading (tryCell c fun cell => cell.assignElement path v) := by
  refine stays_tryCell fun cell cell' h => .inr ?_
  obtain ⟨whole, -, assigned⟩ := Cell.assignElement_eq_ok h
  exact ⟨whole, assigned⟩

theorem stays_removeElement (c : CellId) (path : List Value) :
    Stays home loading (tryCell c fun cell => cell.removeElement path) := by
  refine stays_tryCell fun cell cell' h => ?_
  obtain ⟨-, rfl⟩ | ⟨whole, -, assigned⟩ := Cell.removeElement_eq_ok h
  · exact .inl rfl
  · exact .inr ⟨whole, assigned⟩

theorem stays_writePlace (place : Place) (v : Value) :
    Stays home loading (writePlace place v) := by
  cases place with
  | cell c => exact stays_assign c v
  | transient _ => exact stays_pure _
  | environment name => exact stays_tryEnvironment _

theorem stays_close (f : Frame) (l : Lambda) (isFunction : Bool) :
    Stays home loading (close f l isFunction) := by
  refine stays_bind
    (stays_newScope (fun s => Table.overlay (s.scope f.upScope) (s.scope f.localScope)) fun s e he => ?_)
    fun _ => stays_bind stays_newIdentity fun _ => stays_pure _
  obtain above | here := Table.mem_overlay he
  · exact ⟨_, above⟩
  · exact ⟨_, here⟩

end Eval

namespace Runner

variable {r : Runner}

/-! ## Expressions -/

section Expressions

variable {f : Frame} {home : Option ScopeId} {loading : List String}

theorem stays_exprs (h : ∀ e, Stays home loading (r.expr e f)) (es : List Expr) :
    Stays home loading (r.exprs f es) := by
  induction es with
  | nil => exact stays_pure _
  | cons e es ih => exact stays_bind (h e) fun _ => stays_bind ih fun _ => stays_pure _

theorem stays_single (h : ∀ e, Stays home loading (r.expr e f)) (what : String) (e : Expr) :
    Stays home loading (r.single what e f) := by
  refine stays_bind (h e) fun found => ?_
  split
  · exact stays_pure _
  · exact stays_located _ (stays_fault _)

theorem stays_callable (h : ∀ e, Stays home loading (r.expr e f)) (e : Expr) :
    Stays home loading (r.callable e f) := by
  refine stays_bind (h e) fun found => ?_
  split
  · exact stays_pure _
  · exact stays_fault _
  · exact stays_fault _

theorem stays_indexAll (h : ∀ e, Stays home loading (r.expr e f)) (heads : List Value)
    (bracket : IndexBracket) : Stays home loading (r.indexAll f heads bracket) :=
  stays_bind (stays_exprs h _) fun _ =>
    stays_bind (stays_mapM (fun _ => stays_mapM (fun _ => stays_located _ (stays_ofExcept _)) _) _)
      fun _ => stays_pure _

/-- The parts of a word. -/
theorem stays_compoundOnto (h : ∀ e, Stays home loading (r.expr e f)) (texts : List String)
    (parts : List Expr) : Stays home loading (r.compoundOnto f texts parts) := by
  induction parts generalizing texts with
  | nil => exact stays_pure _
  | cons part parts ih =>
    exact stays_bind (h part) fun _ => stays_bind (stays_ofExcept _) fun texts => ih texts

/-- The pairs of a map. -/
theorem stays_mapOnto (h : ∀ e, Stays home loading (r.expr e f)) (entries : Table Value)
    (pairs : List (Expr × Expr)) : Stays home loading (r.mapOnto f entries pairs) := by
  induction pairs generalizing entries with
  | nil => exact stays_pure _
  | cons pair pairs ih =>
    obtain ⟨key, value⟩ := pair
    exact stays_bind (stays_single h _ key) fun _ => stays_bind (stays_single h _ value) fun _ =>
      stays_bind (stays_ofExcept _) fun _ => ih _

end Expressions

section Rules

variable (hr : r.Contained)
include hr

/-- A capture: its code runs in the frame, with other ports. -/
theorem stays_capture (op : Operation) (f : Frame) :
    Stays (some f.localScope) f.loading (r.capture op f) :=
  stays_bind (stays_updateStreams _) fun q => stays_bind (stays_updateStreams _) fun b =>
    stays_bind (hr.operation op (f.withPorts ⟨f.ports.input, .queue q, .buffer b⟩)) fun _ =>
      stays_get fun _ => stays_pure _

/-- **Expressions** may declare variables in the frame, since code inside of them may. -/
theorem stays_evaluate (e : Expr) (f : Frame) :
    Stays (some f.localScope) f.loading (r.evaluate e f) := by
  have h : ∀ e, Stays (some f.localScope) f.loading (r.expr e f) := fun e => hr.expr e f
  refine stays_located _ ?_
  cases e with
  | literal text span => exact stays_pure _
  | reference ref span =>
    refine stays_bind (stays_readVariable f _ _) fun v => ?_
    split
    · exact stays_ofExcept _
    · exact stays_pure _
  | index head brackets span =>
    exact stays_bind (h head) fun heads =>
      stays_foldlM (fun heads bracket => stays_indexAll h heads bracket) brackets heads
  | list items span => exact stays_bind (stays_exprs h items) fun _ => stays_pure _
  | map pairs span => exact stays_bind (stays_mapOnto h _ pairs) fun _ => stays_pure _
  | lambda l => exact stays_bind (stays_close f l false) fun _ => stays_pure _
  | capture op span => exact stays_capture hr op f
  | compound parts span =>
    exact stays_bind (stays_compoundOnto h _ parts) fun _ => stays_pure _
  | sequence parts span => exact stays_exprs h parts

/-! ## Assignment -/

omit hr in
/-- A write changes a cell or the environment, and binds nothing. -/
theorem stays_write (t : Resolved) (v : Value) (f : Frame) {home : Option ScopeId}
    {loading : List String} : Stays home loading (t.write v f) := by
  refine stays_bind ?_ fun written => ?_
  · cases t.destination with
    | place p => exact stays_bind (stays_writePlace p v) fun _ => stays_pure _
    | element c path => exact stays_assignElement c path v
  · split
    · exact stays_pure _
    · exact stays_located _ (stays_fault _)

omit hr in
theorem stays_writeEach (f : Frame) {home : Option ScopeId} {loading : List String}
    (ts : List Resolved) (vs : List Value) : Stays home loading (Resolved.writeEach f ts vs) := by
  induction ts generalizing vs with
  | nil => exact stays_pure _
  | cons t ts ih =>
    cases vs with
    | nil => exact stays_pure _
    | cons v vs => exact stays_bind (stays_write t v f) fun _ => ih vs

omit hr in
/-- **A new name is declared in the local scope**, and in no other. -/
theorem stays_resolveOrDeclare (f : Frame) (ns name : String) (loading : List String) :
    Stays (some f.localScope) loading (resolveOrDeclare f ns name) := by
  refine stays_get fun w => ?_
  split
  · exact stays_pure _
  · split
    · exact stays_declareHere rfl name Place.cell
    · exact stays_fault _

omit hr in
/-- An element's path is made of values. -/
theorem stays_elementPath {f : Frame} {home : Option ScopeId} {loading : List String}
    (h : ∀ e, Stays home loading (r.expr e f)) (tooMany : Fault) (target : ElementTarget) :
    Stays home loading (r.elementPath f tooMany target) := by
  suffices ∀ level brackets, Stays home loading (elementPath.go r f tooMany target level brackets)
    from this 1 target.brackets
  intro level brackets
  induction brackets generalizing level with
  | nil => exact stays_pure _
  | cons bracket rest ih =>
    refine stays_bind (stays_exprs h _) fun keys => ?_
    split
    · exact stays_bind (ih _) fun _ => stays_pure _
    · exact stays_located _ (stays_fault _)

/-- A target evaluates its indices in the frame. -/
theorem stays_resolveElement (f : Frame) (e : ElementTarget) :
    Stays (some f.localScope) f.loading (r.resolveElement f e) := by
  refine stays_get fun w => ?_
  split
  · exact stays_fault _
  · exact stays_located _ (stays_fault _)
  · refine stays_bind (stays_elementPath (fun e => hr.expr e f) _ e) fun path => ?_
    refine stays_get fun w => ?_
    split
    · exact stays_located _ (stays_fault _)
    · split
      · exact stays_pure _
      · exact stays_pure _

theorem stays_resolveTarget (f : Frame) (t : Target) :
    Stays (some f.localScope) f.loading (r.resolveTarget f t) := by
  refine stays_located _ ?_
  cases t with
  | named ns name span =>
    exact stays_bind (stays_resolveOrDeclare f ns name f.loading) fun _ => stays_pure _
  | element e => exact stays_bind (stays_resolveElement hr f e) fun _ => stays_pure _

theorem stays_resolveEach (f : Frame) (ts : List Target) :
    Stays (some f.localScope) f.loading (r.resolveEach f ts) := by
  induction ts with
  | nil => exact stays_pure _
  | cons t ts ih =>
    exact stays_bind (stays_resolveTarget hr f t) fun _ => stays_bind ih fun _ => stays_pure _

theorem stays_resolveTargets (f : Frame) (t : Targets) :
    Stays (some f.localScope) f.loading (r.resolveTargets f t) := by
  refine stays_bind (stays_resolveEach hr f t.fixed) fun fixed => ?_
  split
  · exact stays_pure _
  · exact stays_bind (stays_resolveTarget hr f _) fun _ => stays_pure _

theorem stays_onlyTarget (f : Frame) (otherwise : Fault) (t : Targets) :
    Stays (some f.localScope) f.loading (r.onlyTarget f otherwise t) := by
  refine stays_bind (stays_resolveTargets hr f t) fun found => ?_
  split
  · exact stays_pure _
  · exact stays_fault _

/-- An assignment is at home in its frame. -/
theorem stays_assignment (targets : Targets) (values : List Expr) (f : Frame) :
    Stays (some f.localScope) f.loading (r.assign targets values f) := by
  refine stays_bind (stays_resolveTargets hr f targets) fun resolved => ?_
  refine stays_bind (stays_exprs (fun e => hr.expr e f) values) fun values => ?_
  dsimp only
  split
  · split
    · exact stays_writeEach f _ _
    · exact stays_fault _
  · split
    · exact stays_bind (stays_writeEach f _ _) fun _ => stays_write _ _ f
    · exact stays_fault _

/-! ## Special forms -/

omit hr in
/-- `fn` binds the function in the local scope. -/
theorem stays_define (name : String) (body : Lambda) (f : Frame) {loading : List String} :
    Stays (some f.localScope) loading (define name body f) :=
  stays_bind (stays_declareHere rfl (name ++ "~") id) fun c =>
    stays_bind (stays_close f body true) fun closure =>
      stays_bind (stays_assign c (.function closure)) fun _ => stays_ofExcept _

/-- A body is called, so it needs no home. -/
theorem stays_block (body : Lambda) (label : String) (f : Frame) (home : Option ScopeId) :
    Stays home f.loading (r.block body label f) :=
  stays_bind (stays_close (f.labelled label) body false) fun closure =>
    hr.call closure [] .block (f.labelled label) home

/-- A body that may be missing. -/
theorem stays_optionalBlock (body : Option Lambda) (label : String) (f : Frame)
    (home : Option ScopeId) : Stays home f.loading (r.optionalBlock body label f) := by
  cases body with
  | none => exact stays_pure _
  | some body => exact stays_block hr body label f home

/-- The branches of an `if`. -/
theorem stays_conditional (otherwise : Option Lambda) (f : Frame) (branches : List Branch) :
    Stays (some f.localScope) f.loading (r.conditional otherwise f branches) := by
  induction branches with
  | nil => exact stays_optionalBlock hr otherwise _ f _
  | cons branch rest ih =>
    refine stays_bind (stays_bind (hr.expr branch.condition (f.labelled "if cond")) fun _ =>
      stays_pure _) fun holds => ?_
    split
    · exact stays_block hr branch.body _ f _
    · exact ih

/-- A while loop. -/
theorem stays_whileLoop (condition : Expr) (body : Lambda) (f : Frame) :
    Stays (some f.localScope) f.loading (r.whileLoop condition body f) := by
  refine stays_bind (stays_close (f.labelled "while") body false) fun closure => hr.loop ?_
  refine stays_bind (stays_bind (hr.expr condition (f.labelled "while cond")) fun _ =>
    stays_pure _) fun holds => ?_
  split
  · exact stays_loopBody (hr.call closure [] .block (f.labelled "while") _)
  · exact stays_pure _

/-- A loop over items, which assigns its variable in the frame. -/
theorem stays_forLoop (target : Targets) (iterable : Expr) (body : Lambda)
    (otherwise : Option Lambda) (f : Frame) :
    Stays (some f.localScope) f.loading (r.forLoop target iterable body otherwise f) := by
  refine stays_bind (stays_onlyTarget hr f _ target) fun item => ?_
  refine stays_bind (stays_single (fun e => hr.expr e f) _ iterable) fun v => ?_
  refine stays_bind (stays_close (f.labelled "for") body false) fun closure => ?_
  refine stays_bind (stays_located _ (stays_ofExcept _)) fun elements => ?_
  split
  · exact stays_optionalBlock hr otherwise _ f _
  · exact stays_forEach (fun element => stays_bind (stays_write item element _) fun _ =>
      stays_loopBody (hr.call closure [] .block (f.labelled "for") _)) elements

/-- A handler assigns the exception in the frame. -/
theorem stays_handle (handler : Handler) (e : Exception) (f : Frame) :
    Stays (some f.localScope) f.loading (r.handle handler e f) := by
  unfold handle
  split
  · refine stays_bind (stays_onlyTarget hr (f.labelled "try except") _ _) fun place => ?_
    refine stays_bind stays_newIdentity fun id => ?_
    exact stays_bind (stays_write place _ _) fun _ => stays_block hr handler.body _ f _
  · exact stays_block hr handler.body _ f _

/-- A guarded body. -/
theorem stays_guarded (body : Lambda) (handler : Option Handler) (otherwise : Option Lambda)
    (f : Frame) : Stays (some f.localScope) f.loading (r.guarded body handler otherwise f) := by
  refine stays_bind (stays_settle (stays_block hr body _ f _)) fun outcome => ?_
  split
  · exact stays_optionalBlock hr otherwise _ f _
  · split
    · exact stays_handle hr _ _ f
    · exact stays_unwind _
  · exact stays_unwind _

/-- A whole `try`. -/
theorem stays_tryBlock (body : Lambda) (handler : Option Handler)
    (otherwise finalizer : Option Lambda) (f : Frame) :
    Stays (some f.localScope) f.loading (r.tryBlock body handler otherwise finalizer f) := by
  have main := stays_guarded hr body handler otherwise f
  cases finalizer with
  | none => exact main
  | some finalizer =>
    refine stays_bind (stays_settle main) fun outcome => ?_
    refine stays_bind (stays_block hr finalizer _ f _) fun _ => ?_
    split
    · exact stays_unwind _
    · exact stays_pure _

/-- A connective. -/
theorem stays_connective (stopAt : Bool) (f : Frame) (last : Value) (es : List Expr) :
    Stays (some f.localScope) f.loading (r.connective stopAt f last es) := by
  induction es generalizing last with
  | nil => exact stays_updateStreams _
  | cons e es ih =>
    refine stays_bind (hr.expr e f) fun values => ?_
    split
    · exact stays_updateStreams _
    · exact ih _

/-- A deletion of an element changes a cell. -/
theorem stays_deleteElement (e : ElementTarget) (f : Frame) :
    Stays (some f.localScope) f.loading (r.deleteElement e f) := by
  have hpath : ∀ tooMany, Stays (some f.localScope) f.loading (r.elementPath f tooMany e) :=
    fun tooMany => stays_elementPath (fun e => hr.expr e f) tooMany e
  refine stays_get fun w => ?_
  split
  · exact stays_fault _
  · exact stays_located _ (stays_fault _)
  · refine stays_bind (hpath _) fun path => stays_bind (stays_removeElement _ path) fun removed => ?_
    cases removed with
    | ok _ => exact stays_pure _
    | error error => exact stays_located _ (stays_fault _)
  · next v _ =>
    refine stays_bind (hpath _) fun path => ?_
    cases (v.removePath path).map fun _ => () with
    | ok _ => exact stays_pure _
    | error error => exact stays_located _ (stays_fault _)

/-- A deletion of a variable unbinds it in the local scope. -/
theorem stays_delete (f : Frame) (targets : List Deletion) :
    Stays (some f.localScope) f.loading (r.delete f targets) := by
  induction targets with
  | nil => exact stays_pure _
  | cons target rest ih =>
    cases target with
    | localName name =>
      exact stays_bind (stays_updateStore fun w => .change (.unbind rfl name)) fun _ => ih
    | environment name =>
      exact stays_bind (stays_tryEnvironment _) fun _ => stays_bind (stays_ofExcept _) fun _ => ih
    | element e => exact stays_bind (stays_deleteElement hr e f) fun _ => ih

/-! ## Imports -/

omit hr in
/-- To compile a module is no change of the world. -/
theorem stays_compileModule (builtins : List String) (source : Source) {home : Option ScopeId}
    {loading : List String} : Stays home loading (compileModule builtins source) := by
  unfold compileModule
  split
  · exact stays_cut rfl
  · exact stays_fault _
  · split
    · exact stays_fault _
    · exact stays_pure _

/-- The code of a module runs at home in the module's namespace, inside one more load. -/
theorem stays_runModule (f : Frame) (source : Source) (path : String) (ns : ScopeId)
    (op : Operation) :
    Stays (some ns) (f.loading ++ [path]) (r.runModule f source path ns op) := by
  refine stays_bind (stays_newScope (fun _ => []) fun _ => nofun) fun nothing => ?_
  refine stays_bind (stays_note _ fun w => .enter op (by simp)) fun _ => ?_
  exact stays_enclosed _ (hr.operation op (f.ofModule source path ns nothing))

/-- **A load is at home in the module's namespace**, and in no other scope. -/
theorem stays_load (f : Frame) (path : String) (ns : ScopeId) :
    Stays (some ns) (f.loading ++ [path]) (r.load f path ns) := by
  refine stays_get fun w => ?_
  refine stays_bind (stays_ofExcept _) fun source => ?_
  exact stays_bind (stays_compileModule _ source) fun op => stays_runModule hr f source path ns op

omit hr in
/-- A load for the first time: begun, run, and settled by how it ended. -/
theorem loadNew_run (f : Frame) (path : String) (w : World) :
    r.loadNew f path w =
      match r.load f path ⟨w.store.scopes.size⟩ (w.beginLoad path) with
      | (.ok (), w') => (.ok ⟨w.store.scopes.size⟩, w'.finishLoad path ⟨w.store.scopes.size⟩)
      | (.error (.unwind u), w') => (.error (.unwind u), w'.abandonLoad path)
      | (.error stop, w') => (.error stop, w') := by
  show (settle (r.load f path ⟨w.store.scopes.size⟩) >>= _) (w.beginLoad path) = _
  rw [bind_run]
  unfold settle
  rcases r.load f path ⟨w.store.scopes.size⟩ (w.beginLoad path) with ⟨stop | a, w'⟩
  · cases stop <;> rfl
  · rfl

/-- **A new load** begins, runs and ends; the load is one step of the evolution. -/
theorem stays_loadNew {f : Frame} {path : String} {w : World} (home : Option ScopeId)
    (new : Table.find? w.modules path = none) :
    Evolves (.of (r.loadNew f path w).1) home f.loading w (r.loadNew f path w).2 := by
  have inner := stays_load hr f path ⟨w.store.scopes.size⟩ (w.beginLoad path)
  rw [loadNew_run]
  rcases hload : r.load f path ⟨w.store.scopes.size⟩ (w.beginLoad path) with ⟨stop | a, w'⟩ <;>
    rw [hload] at inner
  · cases stop with
    | unwind u => exact .failed new inner
    | exit code => exact .unsettled nofun new inner
    | blocked => exact .unsettled nofun new inner
    | outOfFuel => exact .unsettled nofun new inner
  · exact .loaded new inner

/-- An import leaves the importing frame alone. -/
theorem stays_fetchModule (f : Frame) (path : String) (home : Option ScopeId) :
    Stays home f.loading (r.fetchModule f path) := by
  intro w
  rw [fetchModule, get_bind_run, ModuleCache.request]
  cases hentry : Table.find? w.modules path with
  | none => exact stays_loadNew hr home hentry
  | some entry =>
    cases entry with
    | loaded ns => exact .refl w
    | loading ns waiting =>
      cases hself : w.modules.waitsOnSelf path f.loading with
      | true => exact .refl w
      | false =>
        refine .stuck hentry fun h => ?_
        rw [ModuleCache.waitsOnSelf_of_mem _ h] at hself
        exact nomatch hself

omit hr in
/-- What an import gets is the namespace that the cache then has for the module. -/
theorem namespaceOf?_fetchModule {f : Frame} {path : String} {ns : ScopeId} {w w' : World}
    (run : r.fetchModule f path w = (.ok ns, w')) :
    w'.modules.namespaceOf? path = some ns := by
  rw [fetchModule, get_bind_run, ModuleCache.request] at run
  cases hentry : Table.find? w.modules path with
  | none =>
    simp only [hentry, loadNew_run] at run
    rcases hload : r.load f path ⟨w.store.scopes.size⟩ (w.beginLoad path) with ⟨stop | a, w₁⟩ <;>
      rw [hload] at run
    · cases stop <;> exact nomatch run
    · cases run
      exact congrArg _ (Table.find?_insert_self _ _ _)
  | some entry =>
    have found : w.modules.namespaceOf? path = some entry.namespace := congrArg _ hentry
    simp only [hentry] at run
    cases entry with
    | loaded ms =>
      cases run
      exact found
    | loading ms waiting =>
      cases hself : w.modules.waitsOnSelf path f.loading <;> simp only [hself] at run
      · exact nomatch run
      · cases run
        exact found

/-- An import that gets a namespace writes down which. -/
theorem stays_importModule (f : Frame) (target : String) (home : Option ScopeId) :
    Stays home f.loading (r.importModule f target) := by
  refine stays_bind (stays_ofExcept _) fun path => ?_
  intro w
  have fetched := stays_fetchModule hr f path home w
  rw [bind_run]
  rcases run : r.fetchModule f path w with ⟨stop | ns, w'⟩ <;> rw [run] at fetched
  · exact fetched
  · exact .trans fetched (.change (.imports (namespaceOf?_fetchModule run)))

/-- `use` binds the namespace in the local scope. -/
theorem stays_useModule (name path : String) (f : Frame) :
    Stays (some f.localScope) f.loading (r.useModule name path f) :=
  stays_bind (stays_importModule hr f path _) fun _ => stays_bindNew rfl _ _

/-! ## Calls -/

omit hr in
/-- How a parameter is bound: it gets a fresh variable, which takes the argument or refuses it. -/
theorem bindOne_run (scope : ScopeId) (name : String) (v : Value) (w : World) :
    (do
      let c ← updateStore fun s => s.declare name
      ofExcept (← tryCell c fun cell => cell.assign v)
      updateStore fun s => ((), s.bind scope name c) : Eval Unit) w =
      match (w.store.declare name).2.write (w.store.declare name).1 v with
      | .ok store => (.ok (), { w with store := store.bind scope name (w.store.declare name).1 })
      | .error e =>
        (.error (.unwind (.ofFault e)), { w with store := (w.store.declare name).2 }.note (.raised e)) := by
  rw [bind_run_ok (updateStore_run _ w), bind_run, tryCell_run]
  unfold Store.write
  dsimp only
  cases Store.changeCell _ _ _ <;> rfl

omit hr in
/-- A parameter is a new variable. -/
theorem stays_bindOne {home : Option ScopeId} {loading : List String} {scope : ScopeId}
    (h : home = some scope) (name : String) (v : Value) :
    Stays home loading (do
      let c ← updateStore fun s => s.declare name
      ofExcept (← tryCell c fun cell => cell.assign v)
      updateStore fun s => ((), s.bind scope name c)) := by
  intro w
  have known := w.store.isSome_cell?_declare name
  obtain ⟨cell, held⟩ := Option.isSome_iff_exists.mp known
  have declared : Evolves .settled home loading w { w with store := (w.store.declare name).2 } :=
    evolves_declare name w
  rw [bindOne_run, Store.write, Store.changeCell, held]
  dsimp only
  cases assigned : cell.assign v with
  | error e => exact .trans declared (.change (.raise e))
  | ok cell' =>
    refine .trans declared (.trans (.change (.assign held assigned)) (.change (.bind h name ?_)))
    dsimp only
    rw [Store.isSome_cell?_setCell]
    exact known

omit hr in
theorem bindEach_cons (scope : ScopeId) (name : String) (names : List String) (v : Value)
    (vs : List Value) :
    bindEach scope (name :: names) (v :: vs) =
      (do
        let c ← updateStore fun s => s.declare name
        ofExcept (← tryCell c fun cell => cell.assign v)
        updateStore fun s => ((), s.bind scope name c)) >>= fun _ => bindEach scope names vs := by
  rw [bindEach]
  simp only [bind_assoc]

omit hr in
/-- Parameters are bound in the scope of the call. -/
theorem stays_bindEach {home : Option ScopeId} {loading : List String} {scope : ScopeId}
    (h : home = some scope) (names : List String) (vs : List Value) :
    Stays home loading (bindEach scope names vs) := by
  induction names generalizing vs with
  | nil => exact stays_pure _
  | cons name names ih =>
    cases vs with
    | nil => exact stays_pure _
    | cons v vs =>
      rw [bindEach_cons]
      exact stays_bind (stays_bindOne h name v) fun _ => ih vs

omit hr in
theorem stays_bindParameters {home : Option ScopeId} {loading : List String} {scope : ScopeId}
    (h : home = some scope) (l : Lambda) (args : List Value) :
    Stays home loading (bindParameters scope l args) := by
  unfold bindParameters
  dsimp only
  split
  · split
    · exact stays_bindEach h _ _
    · exact stays_fault _
  · split
    · exact stays_bind (stays_bindEach h _ _) fun _ => stays_bindNew h _ _
    · exact stays_fault _

omit hr in
theorem stays_startProgram (path : String) (words : List String) {home : Option ScopeId}
    {loading : List String} : Stays home loading (startProgram path words) := by
  intro w
  rw [startProgram_run]
  cases Command.start w.streams.programs w.environment w.files path words w.streams.input with
  | error e => exact .change (.surroundings _ w.environment w.files)
  | ok result => exact .change (.surroundings _ w.environment result.files)

omit hr in
/-- A program changes files, and its output goes where the ports lead. -/
theorem stays_runExternal (name : String) (args : List Value) (f : Frame)
    {home : Option ScopeId} {loading : List String} :
    Stays home loading (runExternal name args f) := by
  refine stays_get fun w => ?_
  split
  · exact stays_fault _
  · refine stays_bind (stays_ofExcept _) fun words => stays_bind (stays_startProgram _ words) fun ended => ?_
    split
    · exact stays_fault _
    · refine stays_bind (stays_updateStreams _) fun _ => ?_
      split
      · exact stays_pure _
      · exact stays_fault _

omit hr in
theorem stays_bindArguments {home : Option ScopeId} {loading : List String} {scope : ScopeId}
    (h : home = some scope) (l : Lambda) (args : List Value) :
    Stays home loading (bindArguments scope l args) := by
  unfold bindArguments
  split
  · exact stays_bind (stays_bindParameters h l args) fun _ => stays_bindNew h "args" _
  · exact stays_bindNew h "args" _

/-- A body runs in its own frame. -/
theorem stays_runBody (c : Closure) (mode : CallMode) (f : Frame) :
    Stays (some f.localScope) f.loading (r.runBody c mode f) := by
  unfold runBody
  split
  · exact stays_returning (hr.operation c.lambda.body f)
  · exact hr.operation c.lambda.body f

/-- A call has a home of its own. -/
theorem stays_callClosure (c : Closure) (args : List Value) (mode : CallMode) (f : Frame)
    (home : Option ScopeId) : Stays home f.loading (r.callClosure c args mode f) := fun w =>
  .inside <| stays_bind (stays_bindArguments rfl c.lambda args)
    (fun _ => stays_runBody hr c mode (f.inside c mode ⟨w.store.scopes.size⟩)) _

/-! ## Builtins -/

/-- `each` calls, and is at home nowhere. -/
theorem stays_each (args : List Value) (f : Frame) (home : Option ScopeId) :
    Stays home f.loading (r.each args f) := by
  have step (callable : Callable) (v : Value) :
      Stays home f.loading (loopBody (r.call callable [v] .command f)) :=
    stays_loopBody (hr.call callable [v] .command f home)
  unfold each
  split
  · exact stays_fault _
  · next callable rest =>
    dsimp only
    split
    · exact stays_eachInput f.ports (step callable)
    · exact stays_bind (stays_ofExcept _) fun elements => stays_forEach (step callable) elements
    · exact stays_fault _
  · exact stays_fault _

omit hr in
theorem stays_countInput (ports : Ports) {home : Option ScopeId} {loading : List String} :
    Stays home loading (Builtin.countInput ports) := by
  unfold Builtin.countInput
  split
  · exact stays_pure _
  · exact stays_get fun w => stays_bind (stays_eachInput ports fun _ => stays_pure _) fun _ =>
      stays_pure _

omit hr in
theorem stays_inputText (ports : Ports) {home : Option ScopeId} {loading : List String} :
    Stays home loading (Builtin.inputText ports) := by
  unfold Builtin.inputText
  split
  · exact stays_pure _
  · refine stays_get fun w => ?_
    generalize (w.streams.waiting _).length = left
    generalize "" = text
    induction left generalizing text with
    | zero => exact stays_pure _
    | succ left ih =>
      refine stays_bind (stays_updateStreams _) fun next => ?_
      cases next with
      | none => exact stays_pure _
      | some v => exact stays_bind (stays_ofExcept _) fun line => ih _

omit hr in
theorem stays_putJson (ports : Ports) (text : String) {home : Option ScopeId}
    {loading : List String} : Stays home loading (Builtin.putJson ports text) := by
  refine stays_bind (stays_forM (fun v => stays_updateStreams _) _) fun _ => ?_
  split
  · exact stays_pure _
  · exact stays_cut rfl
  · exact stays_fault _

/-- **Builtins** are at home nowhere. -/
theorem stays_builtin (b : Builtin) (args : List Value) (f : Frame) (home : Option ScopeId) :
    Stays home f.loading (r.builtin b args f) := by
  have out (v : Value) : Stays home f.loading (put f.ports v) := stays_updateStreams _
  have signal (s : Signal) : Stays home f.loading
      (if args.isEmpty then throw (.unwind (.signal s)) else fault .arityMismatch : Eval Unit) := by
    split
    · exact stays_unwind _
    · exact stays_fault _
  unfold builtin
  cases b with
  | put => exact stays_forM out args
  | echo => exact stays_updateStreams _
  | print => exact stays_updateStreams _
  | kindOf => exact stays_forM (fun v => out _) args
  | nop => exact stays_pure _
  | fail => exact stays_bind (stays_ofExcept _) fun _ => stays_fault _
  | «return» => exact signal _
  | «break» => exact signal _
  | «continue» => exact signal _
  | exit => exact stays_bind (stays_ofExcept _) fun _ => stays_cut rfl
  | not => exact stays_bind (stays_ofExcept _) fun _ => out _
  | toBool => exact stays_bind (stays_ofExcept _) fun _ => out _
  | equal => exact out _
  | numbersEqual => exact stays_bind (stays_ofExcept _) fun _ => out _
  | less => exact stays_bind (stays_ofExcept _) fun _ => out _
  | add => exact stays_bind (stays_ofExcept _) fun _ => out _
  | subtract => exact stays_bind (stays_ofExcept _) fun _ => stays_bind (stays_ofExcept _) fun _ => out _
  | count =>
    dsimp only
    split
    · exact stays_bind (stays_countInput _) fun _ => out _
    · exact stays_bind (stays_ofExcept _) fun _ => out _
    · exact stays_fault _
  | all =>
    dsimp only
    split
    · exact stays_eachInput _ fun v => stays_bind (out v) fun _ => stays_pure _
    · exact stays_bind (stays_ofExcept _) fun vs => stays_forM out vs
    · exact stays_fault _
  | each => exact stays_each hr args f home
  | fromJson =>
    dsimp only
    split
    · exact stays_bind (stays_inputText _) fun _ => stays_putJson _ _
    · exact stays_bind (stays_ofExcept _) fun _ => stays_putJson _ _
    · exact stays_fault _
  | resolve =>
    refine stays_bind (stays_ofExcept _) fun name => ?_
    split
    · exact out _
    · refine stays_get fun w => ?_
      split
      · exact out _
      · exact out _
  | external => exact stays_bind (stays_ofExcept _) fun _ => out _
  | hasExternal => exact stays_bind (stays_ofExcept _) fun _ => stays_get fun _ => out _
  | searchExternal =>
    refine stays_bind (stays_ofExcept _) fun name => stays_get fun w => ?_
    split
    · exact out _
    · exact stays_fault _

/-- Any function: what it does at home, it does in the scope of its call. -/
theorem stays_callFunction (callable : Callable) (args : List Value) (mode : CallMode) (f : Frame)
    (home : Option ScopeId) : Stays home f.loading (r.callFunction callable args mode f) := by
  cases callable with
  | closure c => exact stays_callClosure hr c args mode f home
  | builtin b => exact stays_builtin hr b args f home
  | external name => exact stays_runExternal name args f

/-! ## Operations -/

/-- Operations one after the other. -/
theorem stays_chunk (f : Frame) (ops : List Operation) :
    Stays (some f.localScope) f.loading (r.chunk f ops) := by
  induction ops with
  | nil => exact stays_pure _
  | cons op rest ih => exact stays_bind (hr.operation op f) fun _ => ih

/-- Stages one after the other. -/
theorem stays_stages (f : Frame) (input : Option QueueId) (ops : List Operation) :
    Stays (some f.localScope) f.loading (r.stages f input ops) := by
  induction ops generalizing input with
  | nil => exact stays_pure _
  | cons stage rest ih =>
    cases rest with
    | nil => exact hr.operation stage (f.withPorts { f.ports with input })
    | cons next rest =>
      refine stays_bind (stays_updateStreams _) fun q => ?_
      refine stays_bind
        (stays_settle (hr.operation stage (f.withPorts ⟨input, .queue q, f.ports.bytes⟩)))
        fun outcome => ?_
      refine stays_bind (stays_settle (ih (some q))) fun later => ?_
      split
      · exact stays_resume _
      · exact stays_unwind _

/-- A command evaluates its arguments in the frame. -/
theorem stays_callCommand (head : CallHead) (args : List Expr) (f : Frame) :
    Stays (some f.localScope) f.loading (r.callCommand head args f) := by
  have h : ∀ e, Stays (some f.localScope) f.loading (r.expr e f) := fun e => hr.expr e f
  cases head with
  | name name =>
    exact stays_bind (stays_findCommand f name) fun callable => stays_bind (stays_exprs h args)
      fun values => hr.call callable values .command f _
  | value e =>
    exact stays_bind (stays_callable h e) fun callable => stays_bind (stays_exprs h args)
      fun values => hr.call callable values .command f _

/-- **Operations**, case by case. -/
theorem stays_execute (op : Operation) (f : Frame) :
    Stays (some f.localScope) f.loading (r.execute op f) := by
  refine stays_located _ ?_
  cases op with
  | chunk ops span => exact stays_chunk hr f ops
  | pipeline ops span => exact stays_stages hr f _ ops
  | call head args span => exact stays_callCommand hr head args f
  | assign targets values span => exact stays_assignment hr targets values f
  | conditional branches otherwise span => exact stays_conditional hr otherwise f branches
  | whileLoop condition body span => exact stays_whileLoop hr condition body f
  | forLoop target iterable body otherwise span => exact stays_forLoop hr _ _ _ _ f
  | tryBlock body handler otherwise finalizer span => exact stays_tryBlock hr _ _ _ _ f
  | connective stopAt args span => exact stays_connective hr stopAt f _ args
  | define name body span => exact stays_define name body f
  | useModule name path span => exact stays_useModule hr name path f
  | delete targets span => exact stays_delete hr f targets

end Rules

/-! ## The evaluator -/

/-- Who has no fuel left does nothing. -/
theorem exhausted_contained : exhausted.Contained where
  operation _ _ := stays_cut rfl
  expr _ _ := stays_cut rfl
  call _ _ _ _ _ := stays_cut rfl
  loop _ := stays_cut rfl

/-- **Whatever runs, it only evolves the world.** -/
theorem ofFuel_contained (fuel : Nat) : (ofFuel fuel).Contained := by
  induction fuel with
  | zero => exact exhausted_contained
  | succ fuel ih =>
    refine ⟨stays_execute ih, stays_evaluate ih, stays_callFunction ih, fun hstep => ?_⟩
    refine stays_bind hstep fun goesOn => ?_
    split
    · exact ih.loop hstep
    · exact stays_pure _

end Runner

end ValueShell
