/-
  Evaluation has access to the streams that its ports lead to.

  `Flow` says what running code can do to the streams; here each rule of the evaluator is shown to do no more,
  given a runner for what is inside that does no more.  A rule hands its own ports on to what it runs, with two
  exceptions: the stages of a pipeline are joined by queues, and a capture puts a queue and a buffer in the place
  of the outputs.  These are made for the purpose, so what runs inside has access to them in addition.

  `ofFuel_flows` closes the circle, by induction on the fuel.
-/
import ValueShell.Proofs.Flow

namespace ValueShell

open Eval

/-- **A runner whose evaluations have access to the streams that their ports lead to**, and to no other ones. -/
structure Runner.Flows (r : Runner) : Prop where
  operation : ∀ {reach : Reach} op {f : Frame}, reach.Admits f.ports → Flowing reach (r.operation op f)
  expr : ∀ {reach : Reach} e {f : Frame}, reach.Admits f.ports → Flowing reach (r.expr e f)
  call : ∀ {reach : Reach} callable args mode {f : Frame}, reach.Admits f.ports →
    Flowing reach (r.call callable args mode f)
  loop : ∀ {reach : Reach} {step : Eval Bool}, Flowing reach step → Flowing reach (r.loop step)

namespace Eval

variable {reach : Reach}

/-! ## Names -/

/-- To read a variable is no output. -/
theorem flows_readVariable (f : Frame) (ns name : String) : Flowing reach (readVariable f ns name) := by
  refine flows_get fun w => ?_
  split
  · exact flows_pure _
  · exact flows_fault _

theorem flows_findCommand (f : Frame) (name : String) : Flowing reach (findCommand f name) := by
  unfold findCommand
  refine flows_get fun w => ?_
  split
  · exact flows_pure _
  · split
    · exact flows_pure _
    · exact flows_fault _

/-- To write a variable is none, either. -/
theorem flows_writePlace (place : Place) (v : Value) : Flowing reach (writePlace place v) := by
  cases place with
  | cell c => exact flows_tryCell _ _
  | transient _ => exact flows_pure _
  | environment name => exact flows_tryEnvironment _

theorem flows_close (f : Frame) (l : Lambda) (isFunction : Bool) : Flowing reach (close f l isFunction) :=
  flows_bind (flows_updateStore _) fun _ => flows_bind (flows_updateStore _) fun _ => flows_pure _

end Eval

namespace Runner

variable {r : Runner} {reach : Reach} {f : Frame}

/-! ## Expressions -/

section Expressions

variable (h : ∀ e, Flowing reach (r.expr e f))
include h

/-- The expressions have the ports of the frame. -/
theorem flows_exprs (es : List Expr) : Flowing reach (r.exprs f es) := by
  induction es with
  | nil => exact flows_pure _
  | cons e es ih => exact flows_bind (h e) fun _ => flows_bind ih fun _ => flows_pure _

theorem flows_single (what : String) (e : Expr) : Flowing reach (r.single what e f) := by
  refine flows_bind (h e) fun found => ?_
  split
  · exact flows_pure _
  · exact flows_located _ (flows_fault _)

theorem flows_callable (e : Expr) : Flowing reach (r.callable e f) := by
  refine flows_bind (h e) fun found => ?_
  split
  · exact flows_pure _
  · exact flows_fault _
  · exact flows_fault _

theorem flows_indexAll (heads : List Value) (bracket : IndexBracket) :
    Flowing reach (r.indexAll f heads bracket) :=
  flows_bind (flows_exprs h _) fun _ =>
    flows_bind (flows_mapM (fun _ => flows_mapM (fun _ => flows_located _ (flows_ofExcept _)) _) _)
      fun _ => flows_pure _

theorem flows_compoundOnto (texts : List String) (parts : List Expr) :
    Flowing reach (r.compoundOnto f texts parts) := by
  induction parts generalizing texts with
  | nil => exact flows_pure _
  | cons part parts ih =>
    exact flows_bind (h part) fun _ => flows_bind (flows_ofExcept _) fun texts => ih texts

theorem flows_mapOnto (entries : Table Value) (pairs : List (Expr × Expr)) :
    Flowing reach (r.mapOnto f entries pairs) := by
  induction pairs generalizing entries with
  | nil => exact flows_pure _
  | cons pair pairs ih =>
    obtain ⟨key, value⟩ := pair
    exact flows_bind (flows_single h _ key) fun _ => flows_bind (flows_single h _ value) fun _ =>
      flows_bind (flows_ofExcept _) fun _ => ih _

end Expressions

section Rules

variable (hr : r.Flows)
include hr

/-- What is captured has access to a queue and a buffer of its own in the place of the outputs. -/
theorem flows_capture (h : reach.Admits f.ports) (op : Operation) : Flowing reach (r.capture op f) := by
  refine flows_newQueue fun q => flows_newBuffer fun b => ?_
  have inside : ((reach.withQueue q).withBuffer b).Admits ⟨f.ports.input, .queue q, .buffer b⟩ :=
    ⟨fun p hp => .inl (h.input p hp), .inr rfl, .inr rfl⟩
  exact flows_bind (hr.operation op inside) fun _ => flows_get fun _ => flows_pure _

/-- **Expressions**: a capture has streams of its own. -/
theorem flows_evaluate (h : reach.Admits f.ports) (e : Expr) : Flowing reach (r.evaluate e f) := by
  have inner : ∀ e, Flowing reach (r.expr e f) := fun e => hr.expr e h
  refine flows_located _ ?_
  cases e with
  | literal text span => exact flows_pure _
  | reference ref span =>
    refine flows_bind (flows_readVariable f _ _) fun v => ?_
    split
    · exact flows_ofExcept _
    · exact flows_pure _
  | index head brackets span =>
    exact flows_bind (inner head) fun heads =>
      flows_foldlM (fun heads bracket => flows_indexAll inner heads bracket) brackets heads
  | list items span => exact flows_bind (flows_exprs inner items) fun _ => flows_pure _
  | map pairs span => exact flows_bind (flows_mapOnto inner _ pairs) fun _ => flows_pure _
  | lambda l => exact flows_bind (flows_close f l false) fun _ => flows_pure _
  | capture op span => exact flows_capture hr h op
  | compound parts span => exact flows_bind (flows_compoundOnto inner _ parts) fun _ => flows_pure _
  | sequence parts span => exact flows_exprs inner parts

/-! ## Assignment -/

omit hr in
/-- An assignment is no output. -/
theorem flows_write (t : Resolved) (v : Value) (f : Frame) : Flowing reach (t.write v f) := by
  refine flows_bind ?_ fun written => ?_
  · cases t.destination with
    | place p => exact flows_bind (flows_writePlace p v) fun _ => flows_pure _
    | element c path => exact flows_tryCell _ _
  · split
    · exact flows_pure _
    · exact flows_located _ (flows_fault _)

omit hr in
theorem flows_writeEach (f : Frame) (ts : List Resolved) (vs : List Value) :
    Flowing reach (Resolved.writeEach f ts vs) := by
  induction ts generalizing vs with
  | nil => exact flows_pure _
  | cons t ts ih =>
    cases vs with
    | nil => exact flows_pure _
    | cons v vs => exact flows_bind (flows_write t v f) fun _ => ih vs

omit hr in
theorem flows_resolveOrDeclare (f : Frame) (ns name : String) : Flowing reach (resolveOrDeclare f ns name) := by
  refine flows_get fun w => ?_
  split
  · exact flows_pure _
  · split
    · exact flows_updateStore _
    · exact flows_fault _

omit hr in
/-- The indices of an element. -/
theorem flows_elementPath (h : ∀ e, Flowing reach (r.expr e f)) (tooMany : Fault) (target : ElementTarget) :
    Flowing reach (r.elementPath f tooMany target) := by
  suffices ∀ level brackets, Flowing reach (elementPath.go r f tooMany target level brackets)
    from this 1 target.brackets
  intro level brackets
  induction brackets generalizing level with
  | nil => exact flows_pure _
  | cons bracket rest ih =>
    refine flows_bind (flows_exprs h _) fun keys => ?_
    split
    · exact flows_bind (ih _) fun _ => flows_pure _
    · exact flows_located _ (flows_fault _)

/-- An element, with its indices. -/
theorem flows_resolveElement (h : reach.Admits f.ports) (e : ElementTarget) :
    Flowing reach (r.resolveElement f e) := by
  refine flows_get fun w => ?_
  split
  · exact flows_fault _
  · exact flows_located _ (flows_fault _)
  · refine flows_bind (flows_elementPath (fun e => hr.expr e h) _ e) fun path => ?_
    refine flows_get fun w => ?_
    split
    · exact flows_located _ (flows_fault _)
    · split
      · exact flows_pure _
      · exact flows_pure _

theorem flows_resolveTarget (h : reach.Admits f.ports) (t : Target) : Flowing reach (r.resolveTarget f t) := by
  refine flows_located _ ?_
  cases t with
  | named ns name span => exact flows_bind (flows_resolveOrDeclare f ns name) fun _ => flows_pure _
  | element e => exact flows_bind (flows_resolveElement hr h e) fun _ => flows_pure _

theorem flows_resolveEach (h : reach.Admits f.ports) (ts : List Target) : Flowing reach (r.resolveEach f ts) := by
  induction ts with
  | nil => exact flows_pure _
  | cons t ts ih =>
    exact flows_bind (flows_resolveTarget hr h t) fun _ => flows_bind ih fun _ => flows_pure _

theorem flows_resolveTargets (h : reach.Admits f.ports) (t : Targets) : Flowing reach (r.resolveTargets f t) := by
  refine flows_bind (flows_resolveEach hr h t.fixed) fun fixed => ?_
  split
  · exact flows_pure _
  · exact flows_bind (flows_resolveTarget hr h _) fun _ => flows_pure _

theorem flows_onlyTarget (h : reach.Admits f.ports) (otherwise : Fault) (t : Targets) :
    Flowing reach (r.onlyTarget f otherwise t) := by
  refine flows_bind (flows_resolveTargets hr h t) fun found => ?_
  split
  · exact flows_pure _
  · exact flows_fault _

/-- An assignment evaluates its values. -/
theorem flows_assignment (h : reach.Admits f.ports) (targets : Targets) (values : List Expr) :
    Flowing reach (r.assign targets values f) := by
  refine flows_bind (flows_resolveTargets hr h targets) fun resolved => ?_
  refine flows_bind (flows_exprs (fun e => hr.expr e h) values) fun values => ?_
  dsimp only
  split
  · split
    · exact flows_writeEach f _ _
    · exact flows_fault _
  · split
    · exact flows_bind (flows_writeEach f _ _) fun _ => flows_write _ _ f
    · exact flows_fault _

/-! ## Special forms -/

omit hr in
theorem flows_define (name : String) (body : Lambda) (f : Frame) : Flowing reach (define name body f) :=
  flows_bind (flows_updateStore _) fun _ => flows_bind (flows_close f body true) fun _ =>
    flows_bind (flows_tryCell _ _) fun _ => flows_ofExcept _

theorem flows_block (h : reach.Admits f.ports) (body : Lambda) (label : String) :
    Flowing reach (r.block body label f) :=
  flows_bind (flows_close (f.labelled label) body false) fun closure => hr.call closure [] .block h

theorem flows_optionalBlock (h : reach.Admits f.ports) (body : Option Lambda) (label : String) :
    Flowing reach (r.optionalBlock body label f) := by
  cases body with
  | none => exact flows_pure _
  | some body => exact flows_block hr h body label

/-- A condition is evaluated in the frame with another label. -/
theorem flows_holds (h : reach.Admits f.ports) (condition : Expr) (label : String) :
    Flowing reach (r.holds condition (f.labelled label)) :=
  flows_bind (hr.expr condition (f := f.labelled label) h) fun _ => flows_pure _

/-- The branches of an `if`. -/
theorem flows_conditional (h : reach.Admits f.ports) (otherwise : Option Lambda) (branches : List Branch) :
    Flowing reach (r.conditional otherwise f branches) := by
  induction branches with
  | nil => exact flows_optionalBlock hr h otherwise _
  | cons branch rest ih =>
    refine flows_bind (flows_holds hr h branch.condition _) fun holds => ?_
    split
    · exact flows_block hr h branch.body _
    · exact ih

/-- A while loop. -/
theorem flows_whileLoop (h : reach.Admits f.ports) (condition : Expr) (body : Lambda) :
    Flowing reach (r.whileLoop condition body f) := by
  refine flows_bind (flows_close (f.labelled "while") body false) fun closure => hr.loop ?_
  refine flows_bind (flows_holds hr h condition _) fun holds => ?_
  split
  · exact flows_loopBody (hr.call closure [] .block h)
  · exact flows_pure _

/-- A loop over items. -/
theorem flows_forLoop (h : reach.Admits f.ports) (target : Targets) (iterable : Expr) (body : Lambda)
    (otherwise : Option Lambda) : Flowing reach (r.forLoop target iterable body otherwise f) := by
  refine flows_bind (flows_onlyTarget hr h _ target) fun item => ?_
  refine flows_bind (flows_single (fun e => hr.expr e h) _ iterable) fun v => ?_
  refine flows_bind (flows_close (f.labelled "for") body false) fun closure => ?_
  refine flows_bind (flows_located _ (flows_ofExcept _)) fun elements => ?_
  split
  · exact flows_optionalBlock hr h otherwise _
  · exact flows_forEach (fun element => flows_bind (flows_write item element _) fun _ =>
      flows_loopBody (hr.call closure [] .block (f := f.labelled "for") h)) elements

theorem flows_handle (h : reach.Admits f.ports) (handler : Handler) (e : Exception) :
    Flowing reach (r.handle handler e f) := by
  unfold handle
  split
  · refine flows_bind (flows_onlyTarget hr (f := f.labelled "try except") h _ _) fun place => ?_
    refine flows_bind (flows_updateStore _) fun id => ?_
    exact flows_bind (flows_write place _ _) fun _ => flows_block hr h handler.body _
  · exact flows_block hr h handler.body _

theorem flows_guarded (h : reach.Admits f.ports) (body : Lambda) (handler : Option Handler)
    (otherwise : Option Lambda) : Flowing reach (r.guarded body handler otherwise f) := by
  refine flows_bind (flows_settle (flows_block hr h body _)) fun outcome => ?_
  split
  · exact flows_optionalBlock hr h otherwise _
  · split
    · exact flows_handle hr h _ _
    · exact flows_stop _
  · exact flows_stop _

/-- A whole `try`. -/
theorem flows_tryBlock (h : reach.Admits f.ports) (body : Lambda) (handler : Option Handler)
    (otherwise finalizer : Option Lambda) : Flowing reach (r.tryBlock body handler otherwise finalizer f) := by
  have main := flows_guarded hr h body handler otherwise
  cases finalizer with
  | none => exact main
  | some finalizer =>
    refine flows_bind (flows_settle main) fun outcome => ?_
    refine flows_bind (flows_block hr h finalizer _) fun _ => ?_
    split
    · exact flows_stop _
    · exact flows_pure _

theorem flows_connective (h : reach.Admits f.ports) (stopAt : Bool) (last : Value) (es : List Expr) :
    Flowing reach (r.connective stopAt f last es) := by
  induction es generalizing last with
  | nil => exact flows_put h _
  | cons e es ih =>
    refine flows_bind (hr.expr e h) fun values => ?_
    split
    · exact flows_put h _
    · exact ih _

/-- A deletion evaluates indices. -/
theorem flows_deleteElement (h : reach.Admits f.ports) (e : ElementTarget) :
    Flowing reach (r.deleteElement e f) := by
  have hpath : ∀ tooMany, Flowing reach (r.elementPath f tooMany e) :=
    fun tooMany => flows_elementPath (fun e => hr.expr e h) tooMany e
  refine flows_get fun w => ?_
  split
  · exact flows_fault _
  · exact flows_located _ (flows_fault _)
  · refine flows_bind (hpath _) fun path => flows_bind (flows_tryCell _ _) fun removed => ?_
    cases removed with
    | ok _ => exact flows_pure _
    | error error => exact flows_located _ (flows_fault _)
  · next v _ =>
    refine flows_bind (hpath _) fun path => ?_
    cases (v.removePath path).map fun _ => () with
    | ok _ => exact flows_pure _
    | error error => exact flows_located _ (flows_fault _)

theorem flows_delete (h : reach.Admits f.ports) (targets : List Deletion) : Flowing reach (r.delete f targets) := by
  induction targets with
  | nil => exact flows_pure _
  | cons target rest ih =>
    cases target with
    | localName name => exact flows_bind (flows_updateStore _) fun _ => ih
    | environment name =>
      exact flows_bind (flows_tryEnvironment _) fun _ => flows_bind (flows_ofExcept _) fun _ => ih
    | element e => exact flows_bind (flows_deleteElement hr h e) fun _ => ih

/-! ## Imports -/

omit hr in
theorem flows_compileModule (builtins : List String) (source : Source) :
    Flowing reach (compileModule builtins source) := by
  unfold compileModule
  split
  · exact flows_stop _
  · exact flows_fault _
  · split
    · exact flows_fault _
    · exact flows_pure _

/-- The code of a module has the ports of whoever imports it. -/
theorem flows_runModule (h : reach.Admits f.ports) (source : Source) (path : String) (ns : ScopeId)
    (op : Operation) : Flowing reach (r.runModule f source path ns op) := by
  refine flows_bind (flows_updateStore _) fun nothing => flows_bind (flows_note _) fun _ => ?_
  exact flows_mapStop _ (hr.operation op h)

/-- A load: the module has the ports of who imports it. -/
theorem flows_load (h : reach.Admits f.ports) (path : String) (ns : ScopeId) :
    Flowing reach (r.load f path ns) := by
  refine flows_get fun w => flows_bind (flows_ofExcept _) fun source => ?_
  exact flows_bind (flows_compileModule _ source) fun op => flows_runModule hr h source path ns op

theorem flows_loadNew (h : reach.Admits f.ports) (path : String) : Flowing reach (r.loadNew f path) := by
  refine flows_bind (flows_updateStore _) fun ns => flows_bind (flows_updateModules _) fun _ => ?_
  refine flows_bind (flows_settle (flows_load hr h path ns)) fun outcome => ?_
  split
  · exact flows_bind (flows_updateModules _) fun _ => flows_bind (flows_note _) fun _ => flows_pure _
  · exact flows_bind (flows_updateModules _) fun _ => flows_bind (flows_note _) fun _ => flows_stop _

theorem flows_importModule (h : reach.Admits f.ports) (target : String) :
    Flowing reach (r.importModule f target) := by
  refine flows_bind (flows_ofExcept _) fun path => flows_bind ?_ fun _ =>
    flows_bind (flows_note _) fun _ => flows_pure _
  refine flows_get fun w => ?_
  split
  · exact flows_pure _
  · exact flows_pure _
  · exact flows_stop _
  · exact flows_loadNew hr h path

/-- And so has `use`. -/
theorem flows_useModule (h : reach.Admits f.ports) (name path : String) :
    Flowing reach (r.useModule name path f) :=
  flows_bind (flows_importModule hr h path) fun _ => flows_updateStore _

/-! ## Calls -/

omit hr in
theorem flows_bindEach (scope : ScopeId) (names : List String) (vs : List Value) :
    Flowing reach (bindEach scope names vs) := by
  induction names generalizing vs with
  | nil => exact flows_pure _
  | cons name names ih =>
    cases vs with
    | nil => exact flows_pure _
    | cons v vs =>
      exact flows_bind (flows_updateStore _) fun _ => flows_bind (flows_tryCell _ _) fun _ =>
        flows_bind (flows_ofExcept _) fun _ => flows_bind (flows_updateStore _) fun _ => ih vs

omit hr in
theorem flows_bindParameters (scope : ScopeId) (l : Lambda) (args : List Value) :
    Flowing reach (bindParameters scope l args) := by
  unfold bindParameters
  dsimp only
  split
  · split
    · exact flows_bindEach _ _ _
    · exact flows_fault _
  · split
    · exact flows_bind (flows_bindEach _ _ _) fun _ => flows_updateStore _
    · exact flows_fault _

omit hr in
theorem flows_bindArguments (scope : ScopeId) (l : Lambda) (args : List Value) :
    Flowing reach (bindArguments scope l args) := by
  unfold bindArguments
  split
  · exact flows_bind (flows_bindParameters _ _ _) fun _ => flows_updateStore _
  · exact flows_updateStore _

omit hr in
/-- A program has the standard streams too, which belong to no operation. -/
theorem flows_startProgram (path : String) (words : List String) :
    Flowing reach (startProgram path words) := by
  intro w
  rw [startProgram_run]
  cases Command.start w.streams.programs w.environment w.files path words w.streams.input with
  | error e => exact .pass [] w.streams.input
  | ok result => exact .pass result.errors result.input

omit hr in
/-- A program writes where the ports lead, and its errors to standard error. -/
theorem flows_runExternal (h : reach.Admits f.ports) (name : String) (args : List Value) :
    Flowing reach (runExternal name args f) := by
  refine flows_get fun w => ?_
  split
  · exact flows_fault _
  · refine flows_bind (flows_ofExcept _) fun words => flows_bind (flows_startProgram _ words) fun ended => ?_
    split
    · exact flows_fault _
    · refine flows_bind (flows_writeBytes h _) fun _ => ?_
      split
      · exact flows_pure _
      · exact flows_fault _

/-- A call has the ports of its frame. -/
theorem flows_callClosure (h : reach.Admits f.ports) (c : Closure) (args : List Value) (mode : CallMode) :
    Flowing reach (r.callClosure c args mode f) := by
  refine flows_bind (flows_updateStore _) fun scope => flows_bind (flows_bindArguments _ _ _) fun _ => ?_
  have body : Flowing reach (r.operation c.lambda.body (f.inside c mode scope)) := hr.operation _ h
  unfold runBody
  split
  · exact flows_returning body
  · exact body

/-! ## Builtins -/

/-- `each` takes from the input, and calls its function with the same ports. -/
theorem flows_each (h : reach.Admits f.ports) (args : List Value) : Flowing reach (r.each args f) := by
  have step (callable : Callable) (v : Value) : Flowing reach (loopBody (r.call callable [v] .command f)) :=
    flows_loopBody (hr.call callable [v] .command h)
  unfold each
  split
  · exact flows_fault _
  · next callable rest =>
    dsimp only
    split
    · exact flows_eachInput h (step callable)
    · exact flows_bind (flows_ofExcept _) fun elements => flows_forEach (step callable) elements
    · exact flows_fault _
  · exact flows_fault _

omit hr in
/-- To count the input takes all of it. -/
theorem flows_countInput {p : Ports} (h : reach.Admits p) : Flowing reach (Builtin.countInput p) := by
  unfold Builtin.countInput
  split
  · exact flows_pure _
  · exact flows_get fun w => flows_bind (flows_eachInput h fun _ => flows_pure _) fun _ => flows_pure _

omit hr in
theorem flows_inputText {p : Ports} (h : reach.Admits p) : Flowing reach (Builtin.inputText p) := by
  unfold Builtin.inputText
  split
  · exact flows_pure _
  · next q hq =>
    refine flows_get fun w => ?_
    generalize (w.streams.waiting q).length = left
    generalize "" = text
    induction left generalizing text with
    | zero => exact flows_pure _
    | succ left ih =>
      refine flows_bind (flows_takeFrom (h.input q hq)) fun next => ?_
      cases next with
      | none => exact flows_pure _
      | some v => exact flows_bind (flows_ofExcept _) fun line => ih _

omit hr in
theorem flows_putJson {p : Ports} (h : reach.Admits p) (text : String) : Flowing reach (Builtin.putJson p text) := by
  refine flows_bind (flows_forM (flows_put h) _) fun _ => ?_
  split
  · exact flows_pure _
  · exact flows_stop _
  · exact flows_fault _

/-- **Builtins** put out where the ports lead, and take from the input. -/
theorem flows_builtin (h : reach.Admits f.ports) (b : Builtin) (args : List Value) :
    Flowing reach (r.builtin b args f) := by
  have out (v : Value) : Flowing reach (put f.ports v) := flows_put h v
  have signal (s : Signal) : Flowing reach
      (if args.isEmpty then throw (.unwind (.signal s)) else fault .arityMismatch : Eval Unit) := by
    split
    · exact flows_stop _
    · exact flows_fault _
  unfold builtin
  cases b with
  | put => exact flows_forM out args
  | echo => exact flows_writeBytes h _
  | print => exact flows_writeBytes h _
  | kindOf => exact flows_forM (fun v => out _) args
  | nop => exact flows_pure _
  | fail => exact flows_bind (flows_ofExcept _) fun _ => flows_fault _
  | «return» => exact signal _
  | «break» => exact signal _
  | «continue» => exact signal _
  | exit => exact flows_bind (flows_ofExcept _) fun _ => flows_stop _
  | not => exact flows_bind (flows_ofExcept _) fun _ => out _
  | toBool => exact flows_bind (flows_ofExcept _) fun _ => out _
  | equal => exact out _
  | numbersEqual => exact flows_bind (flows_ofExcept _) fun _ => out _
  | less => exact flows_bind (flows_ofExcept _) fun _ => out _
  | add => exact flows_bind (flows_ofExcept _) fun _ => out _
  | subtract => exact flows_bind (flows_ofExcept _) fun _ => flows_bind (flows_ofExcept _) fun _ => out _
  | count =>
    dsimp only
    split
    · exact flows_bind (flows_countInput h) fun _ => out _
    · exact flows_bind (flows_ofExcept _) fun _ => out _
    · exact flows_fault _
  | all =>
    dsimp only
    split
    · exact flows_eachInput h fun v => flows_bind (out v) fun _ => flows_pure _
    · exact flows_bind (flows_ofExcept _) fun vs => flows_forM out vs
    · exact flows_fault _
  | each => exact flows_each hr h args
  | fromJson =>
    dsimp only
    split
    · exact flows_bind (flows_inputText h) fun _ => flows_putJson h _
    · exact flows_bind (flows_ofExcept _) fun _ => flows_putJson h _
    · exact flows_fault _
  | resolve =>
    refine flows_bind (flows_ofExcept _) fun name => ?_
    split
    · exact out _
    · refine flows_get fun w => ?_
      split
      · exact out _
      · exact out _
  | external => exact flows_bind (flows_ofExcept _) fun _ => out _
  | hasExternal => exact flows_bind (flows_ofExcept _) fun _ => flows_get fun _ => out _
  | searchExternal =>
    refine flows_bind (flows_ofExcept _) fun name => flows_get fun w => ?_
    split
    · exact out _
    · exact flows_fault _

/-- Any function. -/
theorem flows_callFunction (h : reach.Admits f.ports) (callable : Callable) (args : List Value)
    (mode : CallMode) : Flowing reach (r.callFunction callable args mode f) := by
  cases callable with
  | closure c => exact flows_callClosure hr h c args mode
  | builtin b => exact flows_builtin hr h b args
  | external name => exact flows_runExternal h name args

/-! ## Operations -/

/-- Operations one after the other. -/
theorem flows_chunk (h : reach.Admits f.ports) (ops : List Operation) : Flowing reach (r.chunk f ops) := by
  induction ops with
  | nil => exact flows_pure _
  | cons op rest ih => exact flows_bind (hr.operation op h) fun _ => ih

/-- The queue between two stages is made for them: the one puts values into it, the other takes them. -/
theorem flows_stages (ops : List Operation) {reach : Reach} (input : Option QueueId)
    (h : reach.Admits { f.ports with input }) : Flowing reach (r.stages f input ops) := by
  induction ops generalizing reach input with
  | nil => exact flows_pure _
  | cons stage rest ih =>
    cases rest with
    | nil => exact hr.operation stage h
    | cons next rest =>
      refine flows_newQueue fun q => ?_
      have inside : (reach.withQueue q).Admits ⟨input, .queue q, f.ports.bytes⟩ :=
        ⟨fun p hp => .inl (h.input p hp), .inr rfl, h.bytes⟩
      have onwards : (reach.withQueue q).Admits { f.ports with input := some q } :=
        ⟨fun p hp => .inr (Option.some.inj hp).symm, .inl h.values, h.bytes⟩
      refine flows_bind (flows_settle (hr.operation stage inside)) fun outcome => ?_
      refine flows_bind (flows_settle (ih (some q) onwards)) fun later => ?_
      split
      · exact flows_resume _
      · exact flows_stop _

/-- A command. -/
theorem flows_callCommand (h : reach.Admits f.ports) (head : CallHead) (args : List Expr) :
    Flowing reach (r.callCommand head args f) := by
  have inner : ∀ e, Flowing reach (r.expr e f) := fun e => hr.expr e h
  cases head with
  | name name =>
    exact flows_bind (flows_findCommand f name) fun callable => flows_bind (flows_exprs inner args)
      fun values => hr.call callable values .command h
  | value e =>
    exact flows_bind (flows_callable inner e) fun callable => flows_bind (flows_exprs inner args)
      fun values => hr.call callable values .command h

/-- **Operations**: a pipeline makes the queues between its stages. -/
theorem flows_execute (h : reach.Admits f.ports) (op : Operation) : Flowing reach (r.execute op f) := by
  refine flows_located _ ?_
  cases op with
  | chunk ops span => exact flows_chunk hr h ops
  | pipeline ops span => exact flows_stages hr ops _ h
  | call head args span => exact flows_callCommand hr h head args
  | assign targets values span => exact flows_assignment hr h targets values
  | conditional branches otherwise span => exact flows_conditional hr h otherwise branches
  | whileLoop condition body span => exact flows_whileLoop hr h condition body
  | forLoop target iterable body otherwise span => exact flows_forLoop hr h _ _ _ _
  | tryBlock body handler otherwise finalizer span => exact flows_tryBlock hr h _ _ _ _
  | connective stopAt args span => exact flows_connective hr h stopAt _ args
  | define name body span => exact flows_define name body f
  | useModule name path span => exact flows_useModule hr h name path
  | delete targets span => exact flows_delete hr h targets

end Rules

/-! ## The evaluator -/

theorem exhausted_flows : exhausted.Flows where
  operation _ _ _ := flows_stop _
  expr _ _ _ := flows_stop _
  call _ _ _ _ _ := flows_stop _
  loop _ := flows_stop _

/-- **Whatever runs, it has access to the streams that its ports lead to**, and to those that are made for it. -/
theorem ofFuel_flows (fuel : Nat) : (ofFuel fuel).Flows := by
  induction fuel with
  | zero => exact exhausted_flows
  | succ fuel ih =>
    refine ⟨fun op _ h => flows_execute ih h op, fun e _ h => flows_evaluate ih h e,
      fun callable args mode _ h => flows_callFunction ih h callable args mode, fun step => ?_⟩
    refine flows_bind step fun goesOn => ?_
    split
    · exact ih.loop step
    · exact flows_pure _

end Runner

end ValueShell
