/-
  Computations that take nothing back.

  Scopes are never removed, a read-only variable keeps its value, and the journal never loses an event.  This
  much is true of every computation the evaluator is made of, whatever it is given, so it is stated as a
  class: that some computation CLIMBS is found from how it is written.  For the parts of the evaluator that are
  given no runner it is a consequence of `Stays`.

  It is far less than `Stays` says, and so it is also true where several stages run at the same time: a load of a
  module that begins in one stage while another stage is loading, and ends after it, evolves the world in no
  nested way, but it takes nothing back.
-/
import ValueShell.Proofs.Evaluation
import ValueShell.Proofs.Growth

namespace ValueShell

open Eval

/-- What a run never takes back. -/
structure Onward (w w' : World) : Prop where
  scopes : w.store.scopes.size ≤ w'.store.scopes.size
  constant : ∀ c cell, w.store.cell? c = some cell → cell.readOnly = true →
    w'.store.cell? c = some cell
  journal : ∃ events, w'.journal = events ++ w.journal

namespace Onward

variable {w w' w'' : World}

/-- Nothing has happened. -/
theorem refl (w : World) : Onward w w := ⟨Nat.le_refl _, fun _ _ h _ => h, [], rfl⟩

/-- What the first has not taken back, the second does not, either. -/
theorem trans (first : Onward w w') (later : Onward w' w'') : Onward w w'' := by
  obtain ⟨events, hevents⟩ := first.journal
  obtain ⟨events', hevents'⟩ := later.journal
  refine ⟨Nat.le_trans first.scopes later.scopes, fun c cell held readOnly =>
    later.constant c cell (first.constant c cell held readOnly) readOnly, events' ++ events, ?_⟩
  rw [hevents', hevents, List.append_assoc]

end Onward

/-- What a world that grows takes back is nothing. -/
theorem Grows.onward {home : Option ScopeId} {w w' : World} (h : Grows home w w') : Onward w w' :=
  ⟨h.scopes, h.constant, h.journal⟩

namespace Eval

/-- **A computation that takes nothing back**, however it ends. -/
class Climbs {α : Type} (x : Eval α) : Prop where
  onward : ∀ w, Onward w (x w).2

/-- Code at home somewhere takes nothing back. -/
theorem Stays.climbs {α : Type} {home : Option ScopeId} {loading : List String} {x : Eval α}
    (h : Stays home loading x) : Climbs x := ⟨fun w => (h w).grows.onward⟩

/-! ## Combinators -/

section Combinators

variable {α β : Type}

/-- Nothing happens. -/
instance climbs_pure (a : α) : Climbs (pure a) := ⟨fun w => .refl w⟩

/-- However it ends, it has taken nothing back before. -/
instance climbs_throw (stop : Stop) : Climbs (throw stop : Eval α) := ⟨fun w => .refl w⟩

instance climbs_get : Climbs (get : Eval World) := ⟨fun w => .refl w⟩

/-- **One computation after the other.** -/
theorem climbs_then {x : Eval α} {k : α → Eval β} (hx : Climbs x) (hk : ∀ a, Climbs (k a)) :
    Climbs (x >>= k) where
  onward w := by
    have first := hx.onward w
    rw [bind_run]
    rcases hr : x w with ⟨stop | a, w₁⟩
    · rw [hr] at first
      exact first
    · rw [hr] at first
      exact first.trans ((hk a).onward w₁)

instance climbs_bind (x : Eval α) (k : α → Eval β) [hx : Climbs x] [hk : ∀ a, Climbs (k a)] :
    Climbs (x >>= k) := climbs_then hx hk

/-- Either branch climbs. -/
instance climbs_ite {c : Prop} [Decidable c] (x y : Eval α) [Climbs x] [Climbs y] :
    Climbs (if c then x else y) := by
  split
  · infer_instance
  · infer_instance

/-- Whatever an outcome leads to climbs. -/
theorem climbs_outcome {done : Eval α} {failed : Unwind → Eval α} (hd : Climbs done)
    (hf : ∀ u, Climbs (failed u)) (outcome : Except Unwind Unit) : Climbs (match outcome with
      | .ok () => done
      | .error u => failed u) := by
  cases outcome with
  | ok => exact hd
  | error u => exact hf u

instance climbs_note (e : Event) : Climbs (note e) :=
  ⟨fun _ => ⟨Nat.le_refl _, fun _ _ h _ => h, [e], rfl⟩⟩

instance climbs_fault (f : Fault) : Climbs (fault f : Eval α) :=
  (stays_fault f : Stays none [] _).climbs

instance climbs_ofExcept (r : Except Fault α) : Climbs (ofExcept r) :=
  (stays_ofExcept r : Stays none [] _).climbs

instance climbs_resume (r : Except Unwind α) : Climbs (resume r) :=
  (stays_resume r : Stays none [] _).climbs

/-- A change of the failure is no change of the world. -/
theorem climbs_mapStop (change : Stop → Stop) (x : Eval α) [hx : Climbs x] :
    Climbs (x.mapStop change) where
  onward w := by
    rw [mapStop_run]
    exact hx.onward w

instance climbs_located (site : Site) (x : Eval α) [Climbs x] : Climbs (x.located site) :=
  climbs_mapStop _ x

instance climbs_enclosed (site : Site) (x : Eval α) [Climbs x] : Climbs (x.enclosed site) :=
  climbs_mapStop _ x

/-- To settle is none, either. -/
instance climbs_settle (x : Eval α) [hx : Climbs x] : Climbs (settle x) where
  onward w := by
    have first := hx.onward w
    unfold settle
    rcases hr : x w with ⟨stop | a, w'⟩ <;> rw [hr] at first
    · cases stop <;> exact first
    · exact first

instance climbs_loopBody (x : Eval Unit) [Climbs x] : Climbs (loopBody x) := by
  refine climbs_then inferInstance fun outcome => ?_
  split <;> infer_instance

instance climbs_returning (x : Eval Unit) [Climbs x] : Climbs (returning x) := by
  refine climbs_then inferInstance fun outcome => ?_
  split <;> infer_instance

/-- A loop over items, by induction on them. -/
instance climbs_forEach (step : α → Eval Bool) (items : List α) [∀ a, Climbs (step a)] :
    Climbs (forEach step items) := by
  induction items with
  | nil => exact climbs_pure _
  | cons item rest ih => exact climbs_then inferInstance fun goesOn => inferInstance

instance climbs_forM (step : α → Eval Unit) (items : List α) [∀ a, Climbs (step a)] :
    Climbs (items.forM step) := by
  induction items with
  | nil => exact climbs_pure _
  | cons item rest ih => exact climbs_then inferInstance fun _ => ih

instance climbs_mapM (step : α → Eval β) (items : List α) [∀ a, Climbs (step a)] :
    Climbs (items.mapM step) := by
  induction items with
  | nil => exact climbs_pure _
  | cons item rest ih =>
    rw [List.mapM_cons]
    infer_instance

/-- A fold, by induction on the items. -/
instance climbs_foldlM (step : β → α → Eval β) (items : List α) (b : β)
    [∀ b a, Climbs (step b a)] : Climbs (items.foldlM step b) := by
  induction items generalizing b with
  | nil => exact climbs_pure _
  | cons item rest ih =>
    rw [List.foldlM_cons]
    infer_instance

end Combinators

/-! ## The parts of the world -/

section Parts

variable {α : Type}

/-- The streams may change in any way. -/
instance climbs_updateStreams (change : Streams → α × Streams) : Climbs (updateStreams change) :=
  (stays_updateStreams change : Stays none [] _).climbs

/-- So may the cache. -/
instance climbs_updateModules (change : ModuleCache → ModuleCache) :
    Climbs (updateModules change) := ⟨fun _ => ⟨Nat.le_refl _, fun _ _ h _ => h, [], rfl⟩⟩

/-- A change of the store that removes no scope and changes no cell. -/
theorem climbs_updateStore {change : Store → α × Store}
    (scopes : ∀ s, s.scopes.size ≤ (change s).2.scopes.size)
    (cells : ∀ s, (change s).2.cells = s.cells) : Climbs (updateStore change) where
  onward w := by
    refine ⟨scopes w.store, fun c cell held _ => ?_, [], rfl⟩
    rw [updateStore_run, Store.cell?, cells]
    exact held

/-- A new scope is one scope more. -/
instance climbs_newScope (entries : Store → Table CellId) :
    Climbs (updateStore fun s => s.newScope (entries s)) :=
  climbs_updateStore (fun s => Nat.le_of_lt (Nat.lt_of_lt_of_eq (Nat.lt_succ_self _)
    (s.size_newScope _).symm)) fun _ => rfl

instance climbs_newIdentity : Climbs (updateStore Store.newIdentity) :=
  (stays_newIdentity : Stays none [] _).climbs

/-- A new variable binds a name, and no scope is lost. -/
instance climbs_bindNew (scope : ScopeId) (name : String) (c : Cell) :
    Climbs (updateStore fun s => ((), s.bindNew scope name c)) :=
  (stays_bindNew rfl name c : Stays (some scope) [] _).climbs

instance climbs_bindCell (scope : ScopeId) (name : String) (c : CellId) :
    Climbs (updateStore fun s => ((), s.bind scope name c)) :=
  climbs_updateStore (fun _ => Nat.le_of_eq Array.size_modify.symm) fun _ => rfl

/-- To unbind a name loses an entry, but no scope. -/
instance climbs_unbind (scope : ScopeId) (name : String) :
    Climbs (updateStore fun s => ((), s.unbind scope name)) :=
  climbs_updateStore (fun _ => Nat.le_of_eq Array.size_modify.symm) fun _ => rfl

/-- An assignment changes no variable that is read-only. -/
instance climbs_assign (c : CellId) (v : Value) : Climbs (tryCell c fun cell => cell.assign v) :=
  (stays_assign c v : Stays none [] _).climbs

instance climbs_removeElement (c : CellId) (path : List Value) :
    Climbs (tryCell c fun cell => cell.removeElement path) :=
  (stays_removeElement c path : Stays none [] _).climbs

/-- The environment may change in any way. -/
instance climbs_tryEnvironment {ε : Type} (change : Environment → Except ε Environment) :
    Climbs (tryEnvironment change) := (stays_tryEnvironment change : Stays none [] _).climbs

instance climbs_put (ports : Ports) (v : Value) : Climbs (put ports v) := climbs_updateStreams _

instance climbs_writeBytes (ports : Ports) (bytes : List UInt8) :
    Climbs (writeBytes ports bytes) := climbs_updateStreams _

instance climbs_takeFrom (q : QueueId) : Climbs (takeFrom q) := climbs_updateStreams _

/-- Values are taken from a queue until the step asks for no more. -/
instance climbs_takeEach (q : QueueId) (step : Value → Eval Bool) (count : Nat)
    [∀ v, Climbs (step v)] : Climbs (takeEach q step count) := by
  induction count with
  | zero => exact climbs_pure _
  | succ count ih =>
    refine climbs_then inferInstance fun next => ?_
    split <;> infer_instance

instance climbs_eachInput (ports : Ports) (step : Value → Eval Bool) [∀ v, Climbs (step v)] :
    Climbs (eachInput ports step) := by
  unfold eachInput
  split <;> infer_instance

end Parts

/-! ## Parts of the evaluator that are given no runner -/

section Named

variable {α : Type}

instance climbs_readVariable (f : Frame) (ns name : String) : Climbs (readVariable f ns name) :=
  (stays_readVariable f ns name : Stays none [] _).climbs

instance climbs_findCommand (f : Frame) (name : String) : Climbs (findCommand f name) :=
  (stays_findCommand f name : Stays none [] _).climbs

instance climbs_close (f : Frame) (l : Lambda) (isFunction : Bool) :
    Climbs (close f l isFunction) := (stays_close f l isFunction : Stays none [] _).climbs

/-- A target that fails does nothing else. -/
instance climbs_fail (t : Target) (f : Frame) (e : ElementError) :
    Climbs (t.fail f e : Eval α) := by
  unfold Target.fail
  infer_instance

/-- A write changes a cell or the environment. -/
instance climbs_write (t : Resolved) (v : Value) (f : Frame) : Climbs (t.write v f) :=
  (Runner.stays_write t v f : Stays none [] _).climbs

instance climbs_writeEach (f : Frame) (ts : List Resolved) (vs : List Value) :
    Climbs (Resolved.writeEach f ts vs) := (Runner.stays_writeEach f ts vs : Stays none [] _).climbs

/-- A name that is declared is a new variable. -/
instance climbs_resolveOrDeclare (f : Frame) (ns name : String) :
    Climbs (resolveOrDeclare f ns name) := (Runner.stays_resolveOrDeclare f ns name []).climbs

instance climbs_bindEach (scope : ScopeId) (names : List String) (vs : List Value) :
    Climbs (bindEach scope names vs) :=
  (Runner.stays_bindEach rfl names vs : Stays (some scope) [] _).climbs

/-- Parameters are new variables. -/
instance climbs_bindArguments (scope : ScopeId) (l : Lambda) (args : List Value) :
    Climbs (bindArguments scope l args) :=
  (Runner.stays_bindArguments rfl l args : Stays (some scope) [] _).climbs

instance climbs_inputText_go (q : QueueId) (left : Nat) (text : String) :
    Climbs (Builtin.inputText.go q left text) := by
  induction left generalizing text with
  | zero => exact climbs_pure _
  | succ left ih =>
    refine climbs_then inferInstance fun next => ?_
    split <;> infer_instance

instance climbs_putJson (ports : Ports) (text : String) : Climbs (Builtin.putJson ports text) :=
  (Runner.stays_putJson ports text : Stays none [] _).climbs

/-- A program changes files, and takes what is on standard input. -/
instance climbs_startProgram (path : String) (words : List String) :
    Climbs (startProgram path words) := (Runner.stays_startProgram path words : Stays none [] _).climbs

instance climbs_runExternal (name : String) (args : List Value) (f : Frame) :
    Climbs (runExternal name args f) := (Runner.stays_runExternal name args f : Stays none [] _).climbs

instance climbs_define (name : String) (body : Lambda) (f : Frame) : Climbs (define name body f) :=
  (Runner.stays_define name body f : Stays _ [] _).climbs

instance climbs_compileModule (builtins : List String) (source : Source) :
    Climbs (compileModule builtins source) :=
  (Runner.stays_compileModule builtins source : Stays none [] _).climbs

end Named

end Eval

/-! ## Parts that are given a runner -/

/-- A runner that takes nothing back. -/
class Runner.Steady (r : Runner) : Prop where
  operation : ∀ op f, Climbs (r.operation op f)
  expr : ∀ e f, Climbs (r.expr e f)
  call : ∀ callable args mode f, Climbs (r.call callable args mode f)
  loop : ∀ step, Climbs step → Climbs (r.loop step)

namespace Runner

/-- Who has no fuel left does nothing. -/
theorem exhausted_steady : exhausted.Steady :=
  ⟨fun _ _ => climbs_throw _, fun _ _ => climbs_throw _, fun _ _ _ _ => climbs_throw _,
    fun _ _ => climbs_throw _⟩

variable (r : Runner) [hr : r.Steady] (f : Frame)

instance climbs_operation (op : Operation) : Climbs (r.operation op f) := hr.operation op f

instance climbs_expr (e : Expr) : Climbs (r.expr e f) := hr.expr e f

instance climbs_call (callable : Callable) (args : List Value) (mode : CallMode) :
    Climbs (r.call callable args mode f) := hr.call callable args mode f

/-- A loop is up to the runner. -/
instance climbs_loop (step : Eval Bool) [h : Climbs step] : Climbs (r.loop step) := hr.loop step h

/-! ### Expressions -/

instance climbs_exprs (es : List Expr) : Climbs (r.exprs f es) := by
  induction es with
  | nil => exact climbs_pure _
  | cons e es ih => exact climbs_then inferInstance fun _ => climbs_then ih fun _ => inferInstance

instance climbs_single (what : String) (e : Expr) : Climbs (r.single what e f) :=
  climbs_then inferInstance fun _ => by
    split <;> infer_instance

instance climbs_callable (e : Expr) : Climbs (r.callable e f) :=
  climbs_then inferInstance fun _ => by
    split <;> infer_instance

instance climbs_indexAll (heads : List Value) (bracket : IndexBracket) :
    Climbs (r.indexAll f heads bracket) := by
  unfold indexAll
  infer_instance

instance climbs_compoundOnto (texts : List String) (parts : List Expr) :
    Climbs (r.compoundOnto f texts parts) := by
  induction parts generalizing texts with
  | nil => exact climbs_pure _
  | cons part parts ih =>
    exact climbs_then inferInstance fun _ => climbs_then inferInstance fun texts => ih texts

instance climbs_mapOnto (entries : Table Value) (pairs : List (Expr × Expr)) :
    Climbs (r.mapOnto f entries pairs) := by
  induction pairs generalizing entries with
  | nil => exact climbs_pure _
  | cons pair pairs ih =>
    exact climbs_then inferInstance fun _ => climbs_then inferInstance fun _ =>
      climbs_then inferInstance fun _ => ih _

instance climbs_capture (op : Operation) : Climbs (r.capture op f) := by
  unfold capture
  infer_instance

/-- **Expressions.** -/
theorem climbs_evaluate (e : Expr) : Climbs (r.evaluate e f) := by
  refine @climbs_located _ _ _ ?_
  cases e with
  | reference ref span =>
    refine climbs_then inferInstance fun v => ?_
    split <;> infer_instance
  | _ => infer_instance

/-! ### Assignment -/

instance climbs_elementPath_go (tooMany : Fault) (target : ElementTarget) (level : Nat)
    (brackets : List IndexBracket) : Climbs (elementPath.go r f tooMany target level brackets) := by
  induction brackets generalizing level with
  | nil => exact climbs_pure _
  | cons bracket rest ih =>
    refine climbs_then inferInstance fun keys => ?_
    split <;> infer_instance

instance climbs_elementPath (tooMany : Fault) (target : ElementTarget) :
    Climbs (r.elementPath f tooMany target) := climbs_elementPath_go r f tooMany target 1 _

instance climbs_resolveElement (e : ElementTarget) : Climbs (r.resolveElement f e) := by
  refine climbs_then inferInstance fun w => ?_
  split
  · infer_instance
  · infer_instance
  · refine climbs_then inferInstance fun path => climbs_then inferInstance fun w => ?_
    split
    · infer_instance
    · split <;> infer_instance

instance climbs_resolveTarget (t : Target) : Climbs (r.resolveTarget f t) := by
  refine @climbs_located _ _ _ ?_
  cases t <;> infer_instance

instance climbs_resolveEach (ts : List Target) : Climbs (r.resolveEach f ts) := by
  induction ts with
  | nil => exact climbs_pure _
  | cons t ts ih => exact climbs_then inferInstance fun _ => climbs_then ih fun _ => inferInstance

instance climbs_resolveTargets (t : Targets) : Climbs (r.resolveTargets f t) :=
  climbs_then inferInstance fun _ => by
    split <;> infer_instance

instance climbs_onlyTarget (otherwise : Fault) (t : Targets) :
    Climbs (r.onlyTarget f otherwise t) :=
  climbs_then inferInstance fun _ => by
    split <;> infer_instance

/-- An assignment: targets, values, writes. -/
theorem climbs_assignment (targets : Targets) (values : List Expr) :
    Climbs (r.assign targets values f) := by
  refine climbs_then inferInstance fun _ => climbs_then inferInstance fun _ => ?_
  dsimp only
  split <;> infer_instance

/-! ### Special forms -/

instance climbs_holds (condition : Expr) : Climbs (r.holds condition f) :=
  climbs_then inferInstance fun _ => inferInstance

instance climbs_block (body : Lambda) (label : String) : Climbs (r.block body label f) :=
  climbs_then inferInstance fun _ => inferInstance

instance climbs_optionalBlock (body : Option Lambda) (label : String) :
    Climbs (r.optionalBlock body label f) := by
  cases body with
  | none => exact climbs_pure _
  | some body => exact climbs_block r f body label

instance climbs_conditional (otherwise : Option Lambda) (branches : List Branch) :
    Climbs (r.conditional otherwise f branches) := by
  induction branches with
  | nil => exact climbs_optionalBlock r f otherwise _
  | cons branch rest ih => exact climbs_then inferInstance fun _ => inferInstance

theorem climbs_whileLoop (condition : Expr) (body : Lambda) :
    Climbs (r.whileLoop condition body f) := by
  unfold whileLoop
  infer_instance

theorem climbs_forLoop (target : Targets) (iterable : Expr) (body : Lambda)
    (otherwise : Option Lambda) : Climbs (r.forLoop target iterable body otherwise f) := by
  unfold forLoop
  infer_instance

/-- The handler assigns the exception and runs. -/
instance climbs_handle (handler : Handler) (e : Exception) : Climbs (r.handle handler e f) := by
  unfold handle
  split <;> infer_instance

instance climbs_guarded (body : Lambda) (handler : Option Handler) (otherwise : Option Lambda) :
    Climbs (r.guarded body handler otherwise f) := by
  refine climbs_then inferInstance fun outcome => ?_
  split
  · infer_instance
  · split <;> infer_instance
  · infer_instance

/-- What `finally` is there for climbs, and so does `finally`. -/
theorem climbs_tryBlock (body : Lambda) (handler : Option Handler)
    (otherwise finalizer : Option Lambda) :
    Climbs (r.tryBlock body handler otherwise finalizer f) := by
  cases finalizer with
  | none => exact climbs_guarded r f body handler otherwise
  | some finalizer =>
    refine climbs_then inferInstance fun outcome => climbs_then inferInstance fun _ => ?_
    split <;> infer_instance

instance climbs_connective (stopAt : Bool) (last : Value) (es : List Expr) :
    Climbs (r.connective stopAt f last es) := by
  induction es generalizing last with
  | nil => exact climbs_put _ _
  | cons e es ih =>
    refine climbs_then inferInstance fun values => ?_
    split <;> infer_instance

/-- The deletion of an element is an assignment to its base. -/
instance climbs_deleteElement (e : ElementTarget) : Climbs (r.deleteElement e f) := by
  refine climbs_then inferInstance fun w => ?_
  split
  · infer_instance
  · infer_instance
  · refine climbs_then inferInstance fun path => climbs_then inferInstance fun removed => ?_
    cases removed <;> infer_instance
  · next v _ =>
    refine climbs_then inferInstance fun path => ?_
    cases (v.removePath path).map fun _ => () <;> infer_instance

/-- A variable that is deleted loses its name. -/
instance climbs_delete (targets : List Deletion) : Climbs (r.delete f targets) := by
  induction targets with
  | nil => exact climbs_pure _
  | cons target rest ih =>
    cases target with
    | localName name => exact climbs_then inferInstance fun _ => ih
    | environment name =>
      exact climbs_then inferInstance fun _ => climbs_then inferInstance fun _ => ih
    | element e => exact climbs_then inferInstance fun _ => ih

/-! ### Imports -/

/-- The code of a module runs, and a signal becomes an exception. -/
instance climbs_runModule (source : Source) (path : String) (ns : ScopeId) (op : Operation) :
    Climbs (r.runModule f source path ns op) := by
  unfold runModule
  infer_instance

/-- **A load**: it begins, it runs, and it is written down how it ended. -/
instance climbs_load (path : String) (ns : ScopeId) : Climbs (r.load f path ns) :=
  climbs_then inferInstance fun _ => inferInstance

instance climbs_loadNew (path : String) : Climbs (r.loadNew f path) := by
  refine climbs_then inferInstance fun ns => climbs_then inferInstance fun _ =>
    climbs_then inferInstance fun outcome => ?_
  split <;> infer_instance

/-- The cache answers, and the module is taken from there or loaded. -/
instance climbs_fetchModule (path : String) : Climbs (r.fetchModule f path) :=
  climbs_then inferInstance fun _ => by
    split <;> infer_instance

theorem climbs_useModule (name path : String) : Climbs (r.useModule name path f) := by
  unfold useModule importModule
  infer_instance

/-! ### Calls -/

instance climbs_runBody (c : Closure) (mode : CallMode) : Climbs (r.runBody c mode f) := by
  unfold runBody
  infer_instance

/-- A call makes a scope, binds its parameters, and runs the body. -/
instance climbs_callClosure (c : Closure) (args : List Value) (mode : CallMode) :
    Climbs (r.callClosure c args mode f) := by
  unfold callClosure
  infer_instance

instance climbs_each (args : List Value) : Climbs (r.each args f) := by
  unfold each
  split
  · infer_instance
  · dsimp only
    split <;> infer_instance
  · infer_instance

/-- No builtin but `each` is given the runner. -/
theorem climbs_builtin (b : Builtin) (args : List Value) : Climbs (r.builtin b args f) := by
  by_cases calls : b = .each
  · subst calls
    exact climbs_each r f args
  · have same : r.builtin b args f = exhausted.builtin b args f := by
      cases b with
      | each => exact absurd rfl calls
      | _ => rfl
    rw [same]
    exact (stays_builtin exhausted_contained b args f none).climbs

/-- Any function: a builtin, a closure, or a program. -/
theorem climbs_callFunction (callable : Callable) (args : List Value) (mode : CallMode) :
    Climbs (r.callFunction callable args mode f) := by
  cases callable with
  | closure c => exact climbs_callClosure r f c args mode
  | builtin b => exact climbs_builtin r f b args
  | external name => exact climbs_runExternal name args f

/-! ### Operations -/

instance climbs_chunk (ops : List Operation) : Climbs (r.chunk f ops) := by
  induction ops with
  | nil => exact climbs_pure _
  | cons op rest ih => exact climbs_then inferInstance fun _ => ih

/-- Stages: each is settled, and then one failure is raised. -/
instance climbs_stages (input : Option QueueId) (ops : List Operation) :
    Climbs (r.stages f input ops) := by
  induction ops generalizing input with
  | nil => exact climbs_pure _
  | cons stage rest ih =>
    cases rest with
    | nil => exact climbs_operation r _ stage
    | cons next rest =>
      exact climbs_then inferInstance fun q => climbs_then inferInstance fun outcome =>
        climbs_then inferInstance fun later => climbs_outcome inferInstance inferInstance outcome

theorem climbs_callCommand (head : CallHead) (args : List Expr) :
    Climbs (r.callCommand head args f) := by
  cases head <;> exact climbs_then inferInstance fun _ => inferInstance

/-- **Operations.** -/
theorem climbs_execute (op : Operation) : Climbs (r.execute op f) := by
  refine @climbs_located _ _ _ ?_
  cases op with
  | chunk ops span => exact climbs_chunk r f ops
  | pipeline ops span => exact climbs_stages r f _ ops
  | call head args span => exact climbs_callCommand r f head args
  | assign targets values span => exact climbs_assignment r f targets values
  | conditional branches otherwise span => exact climbs_conditional r f otherwise branches
  | whileLoop condition body span => exact climbs_whileLoop r f condition body
  | forLoop target iterable body otherwise span =>
    exact climbs_forLoop r f target iterable body otherwise
  | tryBlock body handler otherwise finalizer span =>
    exact climbs_tryBlock r f body handler otherwise finalizer
  | connective stopAt args span => exact climbs_connective r f stopAt _ args
  | define name body span => exact climbs_define name body f
  | useModule name path span => exact climbs_useModule r f name path
  | delete targets span => exact climbs_delete r f targets

end Runner

end ValueShell
