/-
  Whatever runs, the world stays sound.

  The rest of the evaluator: special forms, imports, calls, builtins and operations.  A call and a load
  have a home of their own, a fresh scope that no closure has captured; while they last it is one more
  home, and afterwards nobody is at home there again.

  `ofFuel_faithful` closes the circle, by induction on the fuel.
-/
import ValueShell.Proofs.ScopedEvaluation

namespace ValueShell

open Eval

namespace Runner

variable {g : Ground} {r : Runner} (hr : r.Faithful g)

/-! ## Special forms -/

section SpecialForms

variable {homes : List ScopeId} {f : Frame} {t t' : ScopeTable}

include hr

/-- **A block is closed and called.** -/
theorem triple_block {body : Lambda} (hl : body.Scoped g.early t) (label : String) :
    Triple g homes none (f.Covers g homes t) (r.block body label f) fun _ _ => True := by
  refine triple_bind ((triple_close hl false).pre fun _ hc => hc.labelled label) fun closure => ?_
  exact hr.call.pre fun _ hp => ⟨hp.1.builtins, hp.2⟩

theorem triple_optionalBlock {body : Option Lambda} (hl : ∀ l ∈ body, l.Scoped g.early t)
    (label : String) :
    Triple g homes none (f.Covers g homes t) (r.optionalBlock body label f) fun _ _ => True := by
  cases body with
  | none => exact triple_pure fun _ _ => trivial
  | some body => exact triple_block hr (hl body rfl) label

/-- A condition is asked for. -/
theorem triple_holds {condition : Expr} (he : condition.Scoped g.early t) (label : String) :
    Triple g homes none (f.Covers g homes t) (r.holds condition (f.labelled label))
      fun _ _ => True :=
  triple_then ((hr.expr he).pre fun _ hc => hc.labelled label) fun _ =>
    triple_pure fun _ _ => trivial

/-- The branches of an `if`, one after the other. -/
theorem triple_conditional {otherwise : Option Lambda} (branches : List Branch)
    (conditions : ∀ b ∈ branches, b.condition.Scoped g.early t)
    (bodies : ∀ b ∈ branches, b.body.Scoped g.early t)
    (last : ∀ l ∈ otherwise, l.Scoped g.early t) :
    Triple g homes none (f.Covers g homes t) (r.conditional otherwise f branches)
      fun _ _ => True := by
  induction branches with
  | nil => exact triple_optionalBlock hr last _
  | cons branch rest ih =>
    refine triple_bind (triple_holds hr (conditions branch List.mem_cons_self) _) fun goesIn => ?_
    split
    · exact (triple_block hr (bodies branch List.mem_cons_self) _).pre fun _ hp => hp.1
    · exact (ih (fun b hb => conditions b (List.mem_cons_of_mem _ hb))
        fun b hb => bodies b (List.mem_cons_of_mem _ hb)).pre fun _ hp => hp.1

/-- A while loop. -/
theorem triple_whileLoop {condition : Expr} {body : Lambda} (he : condition.Scoped g.early t)
    (hl : body.Scoped g.early t) :
    Triple g homes none (f.Covers g homes t) (r.whileLoop condition body f) fun _ _ => True := by
  refine triple_bind ((triple_close hl false).pre fun _ hc => hc.labelled "while")
    fun closure => hr.loop ?_
  refine triple_bind ((triple_holds hr he _).pre fun _ hp => hp.1) fun goesOn => ?_
  split
  · exact triple_loopBody (hr.call.pre fun _ hp => ⟨hp.1.1.builtins, hp.1.2⟩)
  · exact triple_pure fun _ _ => trivial

/-- A loop over items: its variable is declared in the frame before the first round. -/
theorem triple_forLoop (hc : r.Contained) {target : Targets} {iterable : Expr} {body : Lambda}
    {otherwise : Option Lambda} (names : ∀ x ∈ target.all, ∀ name ∈ x.plainName?, g.early name)
    (each : Target.ScopedEach g.early t target.all t') (source : iterable.Scoped g.early t')
    (inner : body.Scoped g.early t') (last : ∀ l ∈ otherwise, l.Scoped g.early t') :
    Triple g homes (some f.localScope) (f.Covers g homes t)
      (r.forLoop target iterable body otherwise f) fun _ w => f.Covers g homes t' w := by
  refine triple_then (triple_onlyTarget hr hc (by trivial) target each names) fun item => ?_
  -- the target is resolved even if there is nothing to iterate over; the rest is at home nowhere
  refine Triple.aside ?_ _
  refine triple_bind (triple_single hr _ source) fun v => ?_
  refine triple_bind ((triple_close inner false).pre fun _ hp => hp.1.labelled "for")
    fun closure => ?_
  refine triple_bind (triple_located _ (triple_ofExcept (Value.elements_fails v)
    (Q := fun vs w => w.Admits g homes vs) fun vs hvs w hp => hp.1.2.head.elements hvs))
    fun elements => ?_
  split
  · exact (triple_optionalBlock hr last _).pre fun _ hp => hp.1.1.1
  · refine triple_forEach elements fun element hm => ?_
    refine triple_bind ((Resolved.triple_write item element _).pre
      fun _ hp => .only (hp.2 element hm)) fun _ => ?_
    exact triple_loopBody (hr.call.pre fun _ hp => ⟨hp.1.1.1.1.builtins, hp.1.1.2⟩)

/-- The guarded part of a `try`, with its handler, whose variable was taken out by the compiler. -/
theorem triple_guarded {body : Lambda} {handler : Option Handler} {otherwise : Option Lambda}
    (inner : body.Scoped g.early t) (unnamed : ∀ h ∈ handler, h.target = none)
    (handled : ∀ h ∈ handler, h.body.Scoped g.early t)
    (last : ∀ l ∈ otherwise, l.Scoped g.early t) :
    Triple g homes none (f.Covers g homes t) (r.guarded body handler otherwise f)
      fun _ _ => True := by
  refine triple_bind (triple_settle (triple_block hr inner _)).any fun outcome => ?_
  split
  · exact (triple_optionalBlock hr last _).pre fun _ hp => hp.1
  · split
    · next e handler =>
      -- a handler without a variable binds nothing
      unfold handle
      rw [unnamed handler rfl]
      exact (triple_block hr (handled handler rfl) _).pre fun _ hp => hp.1
    · exact triple_throw _
  · exact triple_throw _

/-- A whole `try`. -/
theorem triple_tryBlock {body : Lambda} {handler : Option Handler}
    {otherwise finalizer : Option Lambda} (inner : body.Scoped g.early t)
    (unnamed : ∀ h ∈ handler, h.target = none) (handled : ∀ h ∈ handler, h.body.Scoped g.early t)
    (last : ∀ l ∈ otherwise, l.Scoped g.early t) (final : ∀ l ∈ finalizer, l.Scoped g.early t) :
    Triple g homes none (f.Covers g homes t) (r.tryBlock body handler otherwise finalizer f)
      fun _ _ => True := by
  have guarded : Triple g homes none (f.Covers g homes t) (r.guarded body handler otherwise f)
      fun _ _ => True := triple_guarded hr inner unnamed handled last
  cases finalizer with
  | none => exact guarded
  | some finalizer =>
    refine triple_bind (triple_settle guarded).any fun outcome => ?_
    refine triple_then ((triple_block hr (final finalizer rfl) _).pre fun _ hp => hp.1)
      fun _ => ?_
    split
    · exact triple_throw _
    · exact triple_pure fun _ _ => trivial

/-- A connective stops at the first value that decides it. -/
theorem triple_connective (stopAt : Bool) (args : List Expr)
    (all : ∀ e ∈ args, e.Scoped g.early t) (last : Value) :
    Triple g homes none (fun w => f.Covers g homes t w ∧ w.Admits g homes [last])
      (r.connective stopAt f last args) fun _ _ => True := by
  -- the last value so far changes from argument to argument, and stays admitted
  induction args generalizing last with
  | nil => exact (triple_put f.ports last).pre fun _ hp => hp.2
  | cons e es ih =>
    refine triple_bind ((hr.expr (all e List.mem_cons_self)).pre fun _ hp => hp.1)
      fun values => ?_
    split
    · next v hv =>
      exact (triple_put f.ports v).pre fun _ hp => .only (hp.2 v (List.mem_of_find?_eq_some hv))
    · refine (ih (fun x hx => all x (List.mem_cons_of_mem _ hx)) _).pre fun _ hp => ⟨hp.1.1, ?_⟩
      rcases hv : values.getLast? with _ | v
      · exact hp.1.2
      · exact .only (hp.2 v (List.mem_of_getLast? hv))

omit hr in
/-- A function is bound before its body is closed, so that it can call itself. -/
theorem triple_define {name : String} {body : Lambda}
    (hl : body.Scoped g.early (t.declare (name ++ "~"))) :
    Triple g homes (some f.localScope) (f.Covers g homes t) (define name body f)
      fun _ w => f.Covers g homes (t.declare (name ++ "~")) w := by
  -- the name is bound before the closure is made, which may call itself
  refine triple_then (triple_declareHere (name ++ "~") id) fun c => ?_
  refine Triple.aside ?_ _
  refine triple_bind (triple_close hl true) fun closure => ?_
  refine triple_then (triple_tryCell (fun cell => Cell.assign_fails cell _)
    fun cell cell' h => .inr ⟨_, h, fun w hp _ => hp.2.head⟩) fun refused => ?_
  exact (triple_raise (P := fun _ => True)).weaken (fun _ _ hf => ⟨trivial, hf⟩)
    fun _ _ _ _ => trivial

/-- The deletion of an element reads its base. -/
theorem triple_deleteElement {e : ElementTarget} (text : String)
    (base : e.ns = (Reference.ofText text).ns ∧ e.name = (Reference.ofText text).name)
    (known : t.canRead e.ns e.name)
    (all : ∀ b ∈ e.brackets, ∀ i ∈ b.items, Expr.Scoped g.early t i) :
    Triple g homes none (f.Covers g homes t) (r.deleteElement e f) fun _ _ => True := by
  have path : Triple g homes none (f.Covers g homes t)
      (r.elementPath f .deletionIndexNotSingle e) fun _ _ => True :=
    triple_elementPath hr _ (by trivial) e all
  refine triple_get fun w₀ => ?_
  split
  · next missing =>
    refine triple_fault fun w hs hp => ⟨text, by rw [base.1, base.2], ?_⟩
    obtain ⟨rfl, hc⟩ := hp
    rw [← base.1, ← base.2]
    exact hs.open_of_missing hc known missing
  · exact triple_located _ (triple_ordinary (by trivial))
  · refine triple_then (path.pre fun _ hp => hp.2) fun keys => ?_
    refine triple_then (triple_tryCell (fun cell => Cell.removeElement_fails cell keys)
      fun cell cell' h => ?_) fun removed => ?_
    · rcases Cell.removeElement_eq_ok h with ⟨-, heq⟩ | ⟨whole, hremove, ha⟩
      · exact .inl heq
      · exact .inr ⟨whole, ha, fun w _ hv => hv.removePath hremove⟩
    · cases removed with
      | ok _ => exact triple_pure fun _ _ => trivial
      | error error =>
        exact triple_located _ (triple_fault fun _ _ hf =>
          Ground.expects_of_ordinary (hf error rfl))
  · next v _ =>
    refine triple_then (path.pre fun _ hp => hp.2) fun keys => ?_
    have fails : FailsWith ElementError.Ordinary ((v.removePath keys).map fun _ => ()) :=
      failsWith_map (Value.removePathFrom_fails keys 1 v)
    revert fails
    cases (v.removePath keys).map fun _ => () with
    | ok _ => exact fun _ => triple_pure fun _ _ => trivial
    | error error => exact fun fails => triple_located _ (triple_ordinary (fails error rfl))

/-- What `del` removes, the table removes in the same order. -/
theorem triple_delete (targets : List Deletion) (each : Deletion.ScopedEach g.early t targets t') :
    Triple g homes (some f.localScope) (f.Covers g homes t) (r.delete f targets)
      fun _ w => f.Covers g homes t' w := by
  induction targets generalizing t with
  | nil =>
    cases each
    exact triple_pure fun _ hp => hp
  | cons target rest ih =>
    cases each with
    | @localName _ _ name _ _ later =>
      refine triple_then (triple_updateStore (fun w => .unbind rfl w name) fun w hs hc =>
        ⟨hs.unbind hc.home name, hc.unbind name⟩) fun _ => ih later
    | @environment _ _ name _ later =>
      refine triple_bind (triple_tryEnvironment fun e => Environment.unset_fails e name)
        fun removed => ?_
      exact triple_then triple_raise fun _ => (ih later).pre fun _ hp => hp.1
    | element text base known all later =>
      exact triple_bind (triple_deleteElement hr text base known all) fun _ =>
        (ih later).pre fun _ hp => hp.1

end SpecialForms

/-! ## Imports -/

section Imports

variable {homes : List ScopeId} {f : Frame}

/-- What a module is compiled to, it is compiled to with the builtins alone. -/
theorem triple_compileModule {P : World → Prop} (names : List String) (source : Source) :
    Triple g homes none P (compileModule names source)
      fun op _ => ∃ unit, compileUnit names [] unit = .ok op := by
  unfold compileModule
  split
  · exact triple_throw _
  · exact triple_ordinary (by trivial)
  · next unit _ =>
    split
    · exact triple_ordinary (by trivial)
    · next op hop => exact triple_pure fun _ _ => ⟨unit, hop⟩

include hr

/-- The code of a module sees the builtins, its own namespace, and nothing else. -/
theorem triple_runModule (hc : r.Contained) (source : Source) (path : String) {ns : ScopeId}
    (hns : ns ∈ homes) {op : Operation} {unit : Chunk}
    (compiled : compileUnit g.names [] unit = .ok op) :
    Triple g homes (some ns)
      (fun w => f.setting.builtins = g.builtins ∧ ns.index < w.store.scopes.size)
      (r.runModule f source path ns op) fun _ _ => True := by
  refine triple_then (Q := fun nothing w =>
    (f.ofModule source path ns nothing).Covers g homes (.start g.names []) w) ?_ fun nothing => ?_
  · refine triple_updateStore (fun w => .newScope _ w []) fun w hs hp => ⟨hs.newScope [], ?_⟩
    have grown := (Grows.newScope none w []).scopes
    refine {
      home := hns
      known := Nat.lt_of_lt_of_le hp.2 grown
      sealed := fun hm => Nat.lt_irrefl _ (hs.inside _ hm)
      aboveKnown := ?_
      builtins := hp.1
      names := rfl
      inner := nofun
      outer := nofun }
    show w.store.scopes.size < (w.store.scopes.push []).size
    rw [Array.size_push]
    omega
  · refine triple_running (fun w =>
      (stays_enclosed _ (hc.operation op (f.ofModule source path ns nothing)) w).grows)
      fun orderly => ?_
    obtain ⟨t', hop⟩ := compileUnit_scoped compiled orderly
    exact triple_mapStop _
      (hr.operation (f := f.ofModule source path ns nothing) hop (.inl rfl)).any

/-- **A load** runs in the namespace of the module, which is a home meanwhile. -/
theorem triple_load (hc : r.Contained) (path : String) {ns : ScopeId} (hns : ns ∈ homes) :
    Triple g homes (some ns)
      (fun w => f.setting.builtins = g.builtins ∧ ns.index < w.store.scopes.size)
      (r.load f path ns) fun _ _ => True := by
  refine triple_get fun w₀ => ?_
  -- the names of the builtins are read off the world before the load, and are those of the ground
  refine Triple.weaken (P := fun w => w₀.store.names f.setting.builtins = g.names ∧
    f.setting.builtins = g.builtins ∧ ns.index < w.store.scopes.size) ?_ ?_ fun _ _ _ h => h
  · refine triple_then (triple_ofExcept (Library.findSource_fails _ _ _) fun _ _ _ h => h)
      fun source => ?_
    refine triple_bind (triple_compileModule _ source) fun op => ?_
    refine Triple.pre (P := fun w => (w₀.store.names f.setting.builtins = g.names ∧
      ∃ unit, compileUnit (w₀.store.names f.setting.builtins) [] unit = .ok op) ∧
        f.setting.builtins = g.builtins ∧ ns.index < w.store.scopes.size) ?_
        fun _ hp => ⟨⟨hp.1.1, hp.2⟩, hp.1.2⟩
    refine triple_given (fun w => (stays_runModule hc f source path ns op w).grows)
      fun ⟨names, unit, hunit⟩ => ?_
    exact triple_runModule hr hc source path hns (names ▸ hunit)
  · rintro w hs ⟨rfl, hb, hlt⟩
    exact ⟨hb ▸ hs.names, hb, hlt⟩

/-- A load is at home in the namespace it fills, which no closure has captured. -/
theorem triple_loadNew (hc : r.Contained) (path : String) :
    Triple g homes none (fun _ => f.setting.builtins = g.builtins) (r.loadNew f path)
      fun _ _ => True := by
  refine triple_fresh (fun ns w => f.setting.builtins = g.builtins ∧
    ns.index < w.store.scopes.size) (fun w _ hb => ⟨hb, ?_⟩) fun ns => ?_
  · show w.store.scopes.size < (w.store.scopes.push []).size
    rw [Array.size_push]
    omega
  · refine triple_bind (triple_updateModules _) fun _ => ?_
    refine triple_then ((triple_settle (triple_load hr hc path List.mem_cons_self)).pre
      fun _ hp => hp.1).any fun outcome => ?_
    split
    · exact triple_then (triple_updateModules _) fun _ => triple_then (triple_note (by rintro _ ⟨⟩)) fun _ =>
        triple_pure fun _ _ => trivial
    · exact triple_then (triple_updateModules _) fun _ => triple_then (triple_note (by rintro _ ⟨⟩)) fun _ =>
        triple_throw _

/-- An import takes the module from the cache, or loads it. -/
theorem triple_fetchModule (hc : r.Contained) (path : String) :
    Triple g homes none (fun _ => f.setting.builtins = g.builtins) (r.fetchModule f path)
      fun _ _ => True := by
  refine triple_get fun w₀ => ?_
  split
  · exact triple_pure fun _ _ => trivial
  · exact triple_pure fun _ _ => trivial
  · exact triple_throw _
  · exact (triple_loadNew hr hc path).pre fun _ hp => hp.2

theorem triple_importModule (hc : r.Contained) (target : String) :
    Triple g homes none (fun _ => f.setting.builtins = g.builtins) (r.importModule f target)
      fun _ _ => True := by
  refine triple_then (triple_ofExcept (resolvePath_fails _ _) fun _ _ _ h => h) fun path => ?_
  refine triple_then (triple_fetchModule hr hc path) fun ns => ?_
  exact triple_then (triple_note nofun) fun _ => triple_pure fun _ _ => trivial

/-- `use` binds the namespace in the frame. -/
theorem triple_useModule (hc : r.Contained) (name path : String) {t : ScopeTable} :
    Triple g homes (some f.localScope) (f.Covers g homes t) (r.useModule name path f)
      fun _ w => f.Covers g homes (t.declare (name ++ ":")) w := by
  refine triple_bind ((triple_importModule hr hc path).pre fun _ hp => hp.builtins) fun ns => ?_
  refine triple_updateStore (fun w => ((Grows.newCell none w _).widen _).trans (.bind rfl _ _ _))
    fun w hs hp => ?_
  exact ⟨(hs.newCell .ns).bind hp.1.home _ _, (hp.1.grows (.newCell none w _)).bind _ _⟩

end Imports

/-! ## Calls -/

end Runner

/-- The scope binds all the names. -/
def World.HasBound (scope : ScopeId) (names : List String) (w : World) : Prop :=
  scope.index < w.store.scopes.size ∧ ∀ name ∈ names, w.store.Binds scope name

instance {scope : ScopeId} {names : List String} : Stable (World.HasBound scope names) :=
  ⟨fun hg h => ⟨Nat.lt_of_lt_of_le h.1 hg.scopes, fun name hn => by
    rw [Store.Binds, hg.find?_eq h.1]
    exact h.2 name hn⟩⟩

/-- A name that is bound is bound from then on. -/
theorem World.HasBound.bind {w : World} {scope : ScopeId} {names : List String}
    (h : w.HasBound scope names) (name : String) (c : CellId) :
    World.HasBound scope (name :: names) { w with store := w.store.bind scope name c } := by
  have size : (w.store.bind scope name c).scopes.size = w.store.scopes.size := Array.size_modify
  refine ⟨size ▸ h.1, fun x hx => ?_⟩
  rw [Store.Binds, Store.find?, Store.scope_bind_self _ _ _ h.1, Table.find?_insert]
  by_cases hname : name = x
  · simp [hname]
  · rw [if_neg hname]
    exact h.2 x ((List.mem_cons.mp hx).resolve_left (Ne.symm hname))

theorem World.HasBound.subset {w : World} {scope : ScopeId} {names names' : List String}
    (h : w.HasBound scope names) (hs : names' ⊆ names) : w.HasBound scope names' :=
  ⟨h.1, fun name hn => h.2 name (hs hn)⟩

section Binding

variable {g : Ground} {homes : List ScopeId} {scope : ScopeId} {bound : List String}

/-- A name bound to a new variable. -/
theorem triple_bindPlain (hs : scope ∈ homes) (name : String) (v : Value) :
    Triple g homes (some scope) (fun w => w.HasBound scope bound ∧ w.Admits g homes [v])
      (updateStore fun s => ((), s.bindNew scope name (.plain v)))
      fun _ w => w.HasBound scope (name :: bound) := by
  refine triple_updateStore (fun w => ((Grows.newCell none w _).widen _).trans (.bind rfl _ _ _))
    fun w hw hp => ⟨World.Sound.bind (hw.newCell hp.2.head) hs _ _, ?_⟩
  exact World.HasBound.bind (Stable.keep (.newCell none w (.plain v)) hp.1) _ _

/-- Every parameter that has an argument is bound. -/
theorem triple_bindEach (hs : scope ∈ homes) (names : List String) (vs : List Value)
    (enough : names.length ≤ vs.length) :
    Triple g homes (some scope)
      (fun w => w.HasBound scope bound ∧ w.Admits g homes vs)
      (bindEach scope names vs) fun _ w => w.HasBound scope (names ++ bound) := by
  induction names generalizing vs bound with
  | nil => exact triple_pure fun _ hp => hp.1
  | cons name names ih =>
    cases vs with
    | nil => exact absurd enough (by simp)
    | cons v vs =>
      refine triple_bind (triple_declare (P := fun _ => True) name |>.pre fun _ _ => trivial)
        fun c => ?_
      refine triple_bind (triple_tryCell (fun cell => Cell.assign_fails cell v)
        fun cell cell' h => .inr ⟨v, h, fun w hp _ => hp.1.2.head⟩) fun refused => ?_
      refine triple_then triple_raise fun _ => ?_
      refine triple_then (Q := fun _ w => w.HasBound scope (name :: bound) ∧ w.Admits g homes vs)
        ?_ fun _ => ?_
      · refine triple_updateStore (fun w => .bind rfl w _ _) fun w hw hp => ?_
        obtain ⟨⟨⟨hb, hv⟩, -⟩, -⟩ := hp
        exact ⟨hw.bind hs _ _, hb.bind name c, hv.tail.grows (.bind rfl w name c)
          fun _ heq => by cases heq; exact hs⟩
      · refine (ih vs (Nat.le_of_succ_le_succ enough)).post fun _ w hp => hp.subset ?_
        intro x hx
        simp only [List.cons_append, List.mem_cons, List.mem_append] at hx ⊢
        rcases hx with rfl | hx | hx
        · exact .inr (.inl rfl)
        · exact .inl hx
        · exact .inr (.inr hx)

/-- The parameters are bound one after the other in the fresh scope. -/
theorem triple_bindParameters (hs : scope ∈ homes) (l : Lambda) (args : List Value) :
    Triple g homes (some scope) (fun w => w.HasBound scope [] ∧ w.Admits g homes args)
      (bindParameters scope l args) fun _ w => w.HasBound scope (l.rest.toList ++ l.params) := by
  unfold bindParameters
  cases l.rest with
  | none =>
    dsimp only
    split
    · next hlen =>
      exact (triple_bindEach hs l.params args (Nat.le_of_eq hlen.symm)).post fun _ _ hp =>
        hp.subset (by simp)
    · exact triple_ordinary (by trivial)
  | some rest =>
    dsimp only
    split
    · next hlen =>
      have left {w : World} (h : w.Admits g homes args) :
          w.Admits g homes [.list (args.drop l.params.length)] :=
        .only (.list fun v hv => h v (List.drop_subset _ _ hv))
      refine triple_then (((triple_bindEach hs l.params args hlen).frame (R := fun w =>
        w.Admits g homes [.list (args.drop l.params.length)]) fun w w' hg h => h.grows hg
          fun _ heq => by cases heq; exact hs).pre fun _ hp => ⟨left hp.2, hp⟩) fun _ => ?_
      exact ((triple_bindPlain hs rest _).pre fun _ hp => ⟨hp.2, hp.1⟩).post fun _ _ hp =>
        hp.subset (by simp)
    · exact triple_ordinary (by trivial)

/-- **A call binds all names of its lambda**, if the lambda without a signature has no parameters. -/
theorem triple_bindArguments (hs : scope ∈ homes) {l : Lambda} (args : List Value)
    (unsigned : l.hasSignature = false → l.params = [] ∧ l.rest = none) :
    Triple g homes (some scope) (fun w => w.HasBound scope [] ∧ w.Admits g homes args)
      (bindArguments scope l args) fun _ w => w.HasBound scope l.names := by
  have whole {w : World} (h : w.Admits g homes args) : w.Admits g homes [.list args] :=
    .only (.list h)
  unfold bindArguments
  split
  · refine triple_then (((triple_bindParameters hs l args).frame
      (R := fun w => w.Admits g homes [.list args]) fun w w' hg h => h.grows hg
        fun _ heq => by cases heq; exact hs).pre fun _ hp => ⟨whole hp.2, hp⟩) fun _ => ?_
    exact (triple_bindPlain hs "args" _).pre fun _ hp => ⟨hp.2, hp.1⟩
  · next hsig =>
    obtain ⟨hparams, hrest⟩ := unsigned (by simpa using hsig)
    refine ((triple_bindPlain hs "args" (.list args)).pre fun _ hp => ⟨hp.1, whole hp.2⟩).post
      fun _ _ hp => hp.subset ?_
    simp [Lambda.names, hparams, hrest]

end Binding

namespace Runner

variable {g : Ground} {r : Runner} {homes : List ScopeId} {f : Frame}

/-- A body runs in the scope of its call. -/
theorem triple_runBody (hr : r.Faithful g) {c : Closure} {t t' : ScopeTable} (mode : CallMode)
    (ho : c.lambda.body.Scoped g.early t t') :
    Triple g homes (some f.localScope) (f.Covers g homes t) (r.runBody c mode f)
      fun _ _ => True := by
  have ran : Triple g homes (some f.localScope) (f.Covers g homes t)
      (r.operation c.lambda.body f) fun _ => f.Covers g homes t' := hr.operation ho (.inl rfl)
  unfold runBody
  split
  · exact triple_returning ran
  · exact ran.any

/-- **A call** of a founded closure: in its own scope, and below the one that the closure captured. -/
theorem triple_callClosure (hr : r.Faithful g) (hc : r.Contained) (c : Closure)
    (args : List Value) (mode : CallMode) :
    Triple g homes none (fun w => f.setting.builtins = g.builtins ∧
      w.Admits g homes (.function (.closure c) :: args)) (r.callClosure c args mode f)
      fun _ _ => True := by
  refine triple_fresh (fun scope w => (f.setting.builtins = g.builtins ∧
    c.Founded g (scope :: homes) w.store) ∧ w.HasBound scope [] ∧
      w.Admits g (scope :: homes) args) (fun w hs hp => ?_) fun scope => ?_
  · have grown : Grows none w { w with store := (w.store.newScope []).2 } := .newScope none w []
    have founded (c : Closure) (h : c.Founded g homes w.store) :
        c.Founded g (⟨w.store.scopes.size⟩ :: homes) (w.store.newScope []).2 :=
      Closure.Founded.grows grown (fun _ home => by cases home) (World.Sound.founded_fresh (Nat.le_refl _) h)
    cases hp.2.head with
    | closure hfounded =>
      refine ⟨⟨hp.1, founded c hfounded⟩, ⟨?_, List.forall_mem_nil _⟩, fun v hv => (hp.2.tail v hv).mono founded⟩
      show w.store.scopes.size < (w.store.scopes.push []).size
      rw [Array.size_push]
      omega
  · have run (w : World) : Grows (some scope) w ((do
        bindArguments scope c.lambda args
        r.runBody c mode (f.inside c mode scope)) w).2 :=
      (stays_bind (stays_bindArguments rfl c.lambda args)
        (fun _ => stays_runBody hc c mode (f.inside c mode scope)) w).grows
    refine Triple.pre (P := fun w => ∃ t, (f.setting.builtins = g.builtins ∧ t.builtins = g.names ∧
      c.lambda.Scoped g.early t) ∧ (c.Founded g (scope :: homes) w.store ∧
        ∀ name, t.has name = true → w.store.Binds c.captured name ∨ g.Taken name) ∧
          w.HasBound scope [] ∧ w.Admits g (scope :: homes) args) ?_ fun w hp => ?_
    · refine triple_exists run fun t => triple_given run fun given => ?_
      obtain ⟨hb, hnames, hl⟩ := given
      cases hl with
      | @intro _ t' _ unsigned inner =>
        have mem : scope ∈ scope :: homes := List.mem_cons_self
        refine triple_then ((triple_bindArguments mem args unsigned).frame
          fun w w' hg h => ?_) fun _ => ?_
        · have kept := h.1.grows hg fun _ heq => by cases heq; exact mem
          have away : some scope ≠ some c.captured := fun heq => h.1.sealed (by
            cases heq
            exact mem)
          refine ⟨kept, fun name hn => ?_⟩
          rw [Store.Binds, hg.find?_eq_of_ne h.1.known away]
          exact h.2 name hn
        · refine (triple_runBody hr (f := f.inside c mode scope) mode inner).pre fun w hp => ?_
          exact {
            home := mem
            known := hp.2.1
            sealed := hp.1.1.sealed
            aboveKnown := hp.1.1.known
            builtins := hb
            names := hnames
            inner := fun name hn => .inl (hp.2.2 name hn)
            outer := fun name hn => hp.1.2 name hn }
    · obtain ⟨⟨hb, hfounded⟩, hbound, hadmits⟩ := hp
      obtain ⟨t, hnames, hbinds, hl⟩ := hfounded.compiled
      exact ⟨t, ⟨hb, hnames, hl⟩, ⟨hfounded, hbinds⟩, hbound, hadmits⟩

theorem triple_startProgram {P : World → Prop} (path : String) (words : List String) :
    Triple g homes none P (startProgram path words) fun _ _ => True where
  grows w := (stays_startProgram path words w : Evolves _ none [] _ _).grows
  keeps w _ hs _ := by
    refine ⟨?_, fun _ _ => trivial⟩
    rw [startProgram_run]
    cases Command.start w.streams.programs w.environment w.files path words w.streams.input with
    | error e => exact hs.changeStreams hs.queues
    | ok result => exact { hs.changeStreams (s := w.streams.pass result.errors result.input) hs.queues with }

/-- A command of the system knows nothing of scopes. -/
theorem triple_runExternal {P : World → Prop} (name : String) (args : List Value) :
    Triple g homes none P (runExternal name args f) fun _ _ => True := by
  refine triple_get fun w => ?_
  split
  · exact triple_ordinary (f := .commandNotFound name) trivial
  · refine triple_then (Q := fun _ _ => True)
      (triple_ofExcept (failsWith_mapM Value.toWord_fails args) fun _ _ _ _ => trivial) fun words => ?_
    refine triple_then (triple_startProgram _ words) fun ended => ?_
    split
    · next e => exact triple_ordinary (f := .commandNotStarted name e.message) trivial
    · next result =>
      refine triple_then (triple_writeBytes f.ports result.output) fun _ => ?_
      split
      · exact triple_pure fun _ _ => trivial
      · exact triple_ordinary (f := .commandFailed name result.status.text) trivial

/-! ## Builtins -/

section Builtins

variable {P : World → Prop}

/-- `each` calls its function with every value of its input. -/
theorem triple_each (hr : r.Faithful g) (args : List Value) :
    Triple g homes none (fun w => f.setting.builtins = g.builtins ∧ w.Admits g homes args)
      (r.each args f) fun _ _ => True := by
  unfold each
  split
  · exact triple_ordinary (by trivial)
  · next callable rest =>
    have step (v : Value) : Triple g homes none (fun w => (f.setting.builtins = g.builtins ∧
        w.Admits g homes (.function callable :: rest)) ∧ w.Admits g homes [v])
        (loopBody (r.call callable [v] .command f)) fun _ _ => True :=
      triple_loopBody (hr.call.pre fun _ hp => ⟨hp.1.1, .cons hp.1.2.head hp.2⟩)
    dsimp only
    split
    · exact triple_eachInput f.ports step
    · next inputs =>
      refine triple_bind (triple_ofExcept (Q := fun vs w => w.Admits g homes vs)
        (Value.elements_fails inputs) fun vs hvs w hp => hp.2.tail.head.elements hvs) fun vs => ?_
      exact triple_forEach vs fun v hv => (step v).pre fun _ hp => ⟨hp.1, .only (hp.2 v hv)⟩
    · exact triple_ordinary (by trivial)
  · exact triple_ordinary (by trivial)

/-- To count the input reads no variable. -/
theorem triple_countInput (ports : Ports) :
    Triple g homes none P (Builtin.countInput ports) fun _ _ => True := by
  unfold Builtin.countInput
  split
  · exact triple_pure fun _ _ => trivial
  · refine triple_get fun w₀ => Triple.pre (P := fun _ => True) ?_ fun _ _ => trivial
    exact triple_then (triple_eachInput ports fun v => triple_pure fun _ _ => trivial) fun _ =>
      triple_pure fun _ _ => trivial

theorem triple_inputText (ports : Ports) :
    Triple g homes none P (Builtin.inputText ports) fun _ _ => True := by
  unfold Builtin.inputText
  split
  · exact triple_pure fun _ _ => trivial
  · refine triple_get fun w₀ => Triple.pre (P := fun _ => True) ?_ fun _ _ => trivial
    generalize (w₀.streams.waiting _).length = left
    generalize "" = text
    induction left generalizing text with
    | zero => exact triple_pure fun _ _ => trivial
    | succ left ih =>
      refine triple_then (triple_takeFrom _).any fun next => ?_
      cases next with
      | none => exact triple_pure fun _ _ => trivial
      | some v =>
        exact triple_then (triple_ofExcept (Value.toWord_fails v) fun _ _ _ h => h) fun line => ih _

theorem triple_putJson (ports : Ports) (text : String) :
    Triple g homes none P (Builtin.putJson ports text) fun _ _ => True := by
  unfold Builtin.putJson
  dsimp only
  refine triple_then ((triple_forM _ fun v hv => (triple_put ports v).pre fun _ _ =>
    .only (readJson_carries text.toList v hv)).pre (P := fun _ => True) fun _ _ => trivial)
    fun _ => ?_
  split
  · exact triple_pure fun _ _ => trivial
  · exact triple_throw _
  · exact triple_ordinary (by trivial)

/-- A builtin puts out what it was given, parts of it, or what carries no closure. -/
theorem triple_builtin (hr : r.Faithful g) (b : Builtin) (args : List Value) :
    Triple g homes none (fun w => f.setting.builtins = g.builtins ∧ w.Admits g homes args)
      (r.builtin b args f) fun _ _ => True := by
  have fresh {P : World → Prop} {v : Value} (hv : ∀ w : World,
      v.Carries (Closure.Founded g homes w.store)) :
      Triple g homes none P (put f.ports v) fun _ _ => True :=
    (triple_put f.ports v).pre fun w _ => .only (hv w)
  have given {P : World → Prop} [Stable P] (vs : List Value)
      (hvs : ∀ w, P w → w.Admits g homes vs) :
      Triple g homes none P (vs.forM (put f.ports)) fun _ _ => True :=
    triple_forM vs fun v hv => (triple_put f.ports v).pre fun w hp => .only (hvs w hp v hv)
  have signal {P : World → Prop} (s : Signal) : Triple g homes none P
      (if args.isEmpty then throw (.unwind (.signal s)) else fault .arityMismatch : Eval Unit)
      fun _ _ => True := by
    split
    · exact triple_throw _
    · exact triple_ordinary (by trivial)
  have word {P : World → Prop} {α : Type} {r : Except Fault α}
      (hf : FailsWith Fault.Ordinary r) : Triple g homes none P (ofExcept r) fun _ => P :=
    triple_ofExcept hf fun _ _ _ h => h
  unfold builtin
  cases b with
  | put => exact given args fun _ hp => hp.2
  | echo => exact triple_writeBytes _ _
  | print => exact triple_writeBytes _ _
  | kindOf => exact triple_forM args fun v _ => fresh fun _ => .text
  | nop => exact triple_pure fun _ _ => trivial
  | fail => exact triple_then (word (Builtin.only_fails args)) fun _ => triple_ordinary (by trivial)
  | «return» => exact signal _
  | «break» => exact signal _
  | «continue» => exact signal _
  | exit => exact triple_then (word (Builtin.exitCode_fails args)) fun _ => triple_throw _
  | not => exact triple_then (word (Builtin.only_fails args)) fun _ => fresh fun _ => .bool
  | toBool => exact triple_then (word (Builtin.only_fails args)) fun _ => fresh fun _ => .bool
  | equal => exact fresh fun _ => .bool
  | numbersEqual =>
    exact triple_then (word (failsWith_mapM Value.toNumber_fails args)) fun _ => fresh fun _ => .bool
  | less =>
    exact triple_then (word (failsWith_mapM Value.toNumber_fails args)) fun _ => fresh fun _ => .bool
  | add =>
    exact triple_then (word (failsWith_mapM Value.toNumber_fails args))
      fun _ => fresh fun _ => .number
  | subtract =>
    exact triple_then (word (failsWith_mapM Value.toNumber_fails args)) fun numbers =>
      triple_then (word (Builtin.difference_fails numbers)) fun _ => fresh fun _ => .number
  | count =>
    dsimp only
    split
    · exact triple_then (triple_countInput _) fun _ => fresh fun _ => .number
    · exact triple_then (word (Value.elements_fails _)) fun _ => fresh fun _ => .number
    · exact triple_ordinary (by trivial)
  | all =>
    dsimp only
    split
    · exact triple_eachInput _ fun v => triple_then ((triple_put f.ports v).pre fun _ hp => hp.2)
        fun _ => triple_pure fun _ _ => trivial
    · next v =>
      refine triple_bind (triple_ofExcept (Q := fun vs w => w.Admits g homes vs)
        (Value.elements_fails v) fun vs hvs w hp => hp.2.head.elements hvs) fun vs => ?_
      exact given vs fun _ hp => hp.2
    · exact triple_ordinary (by trivial)
  | each => exact triple_each hr args
  | fromJson =>
    dsimp only
    split
    · exact triple_then (triple_inputText _) fun _ => triple_putJson _ _
    · exact triple_then (word (Value.toWord_fails _)) fun _ => triple_putJson _ _
    · exact triple_ordinary (by trivial)
  | resolve =>
    refine triple_then (word (Builtin.onlyWord_fails args)) fun name => ?_
    split
    · exact fresh fun _ => .text
    · refine triple_get fun w₀ => ?_
      split
      · exact fresh fun _ => .text
      · exact fresh fun _ => .text
  | external =>
    exact triple_then (word (Builtin.onlyWord_fails args)) fun _ => fresh fun _ => .external
  | hasExternal =>
    exact triple_then (word (Builtin.onlyWord_fails args)) fun _ =>
      triple_get fun _ => fresh fun _ => .bool
  | searchExternal =>
    refine triple_then (word (Builtin.onlyWord_fails args)) fun name => triple_get fun w₀ => ?_
    split
    · exact fresh fun _ => .text
    · exact triple_ordinary (by trivial)

end Builtins

/-- **A call of any function.** -/
theorem triple_callFunction (hr : r.Faithful g) (hc : r.Contained) (callable : Callable)
    (args : List Value) (mode : CallMode) :
    Triple g homes none (fun w => f.setting.builtins = g.builtins ∧
      w.Admits g homes (.function callable :: args)) (r.callFunction callable args mode f)
      fun _ _ => True := by
  cases callable with
  | closure c => exact triple_callClosure hr hc c args mode
  | builtin b => exact (triple_builtin hr b args).pre fun _ hp => ⟨hp.1, hp.2.tail⟩
  | external name => exact triple_runExternal name args

/-! ## Operations -/

section Operations

variable {t t' : ScopeTable} {home : Option ScopeId} (hr : r.Faithful g)
include hr

/-- Either the frame is where the operations are at home, or none of them declares anything. -/
theorem triple_chunk (ops : List Operation) (each : Operation.ScopedEach g.early t ops t')
    (hh : home = some f.localScope ∨ ∀ op ∈ ops, op.Quiet) :
    Triple g homes home (f.Covers g homes t) (r.chunk f ops)
      fun _ w => f.Covers g homes t' w := by
  -- each operation hands its table on to the next one
  induction ops generalizing t with
  | nil =>
    cases each
    exact triple_pure fun _ hp => hp
  | cons op ops ih =>
    cases each with
    | cons first rest =>
      exact triple_then (hr.operation first (hh.imp_right fun hq => hq op List.mem_cons_self))
        fun _ => ih rest (hh.imp_right fun hq x hx => hq x (List.mem_cons_of_mem _ hx))

/-- No stage of a pipeline declares anything, so each of them runs in the same table, however the
others ended. -/
theorem triple_stages (ops : List Operation) (quiet : ∀ op ∈ ops, op.Quiet)
    (all : ∀ op ∈ ops, op.Scoped g.early t t) (input : Option QueueId) :
    Triple g homes none (f.Covers g homes t) (r.stages f input ops) fun _ _ => True := by
  induction ops generalizing input with
  | nil => exact triple_pure fun _ _ => trivial
  | cons stage rest ih =>
    have here (ports : Ports) : Triple g homes none (f.Covers g homes t)
        (r.operation stage (f.withPorts ports)) fun _ _ => True :=
      ((hr.operation (all stage List.mem_cons_self) (.inr (quiet stage List.mem_cons_self))).pre
        fun _ hp => hp.withPorts ports).any
    cases rest with
    | nil => exact here { f.ports with input }
    | cons next rest =>
      refine triple_bind triple_newQueue fun q => ?_
      refine triple_bind ((triple_settle (here ⟨input, .queue q, f.ports.bytes⟩)).pre
        fun _ hp => hp.1).any fun outcome => ?_
      refine triple_bind ((triple_settle (ih (fun x hx => quiet x (List.mem_cons_of_mem _ hx))
        (fun x hx => all x (List.mem_cons_of_mem _ hx)) (some q))).pre fun _ hp => hp.1.1).any
        fun later => ?_
      split
      · exact triple_resume fun _ _ _ _ => trivial
      · exact triple_throw _

/-- A command finds its function and evaluates its arguments. -/
theorem triple_callCommand (head : CallHead) (args : List Expr)
    (callee : ∀ e, head = .value e → e.Scoped g.early t) (all : ∀ e ∈ args, e.Scoped g.early t) :
    Triple g homes none (f.Covers g homes t) (r.callCommand head args f) fun _ _ => True := by
  have run (callable : Callable) : Triple g homes none
      (fun w => f.Covers g homes t w ∧ w.Admits g homes [.function callable]) (do
        let values ← r.exprs f args
        r.call callable values .command f) fun _ _ => True :=
    triple_bind ((triple_exprs hr args all).pre fun _ hp => hp.1) fun values =>
      hr.call.pre fun _ hp => ⟨hp.1.1.builtins, .cons hp.1.2.head hp.2⟩
  cases head with
  | name name => exact triple_bind (triple_findCommand name) run
  | value e => exact triple_bind (triple_callable hr (callee e rfl)) run

/-- **An operation** leaves the frame with the table that compilation went on with. -/
theorem triple_execute (hc : r.Contained) {op : Operation} (ho : op.Scoped g.early t t')
    (hh : home = some f.localScope ∨ op.Quiet) :
    Triple g homes home (f.Covers g homes t) (r.execute op f) fun _ => f.Covers g homes t' := by
  -- a declaring operation is at home in the local scope
  have atHome {op : Operation} (hh : home = some f.localScope ∨ op.Quiet) (hd : ¬op.Quiet) :
      home = some f.localScope := hh.resolve_right hd
  refine triple_located _ ?_
  cases ho with
  | chunk each =>
    refine triple_chunk hr _ each (hh.imp_right fun hq => ?_)
    cases hq with
    | chunk all => exact all
  | pipeline quiet all => exact (triple_stages hr _ quiet all _).aside home
  | call callee all => exact (triple_callCommand hr _ _ callee all).aside home
  | assign names each all =>
    cases atHome hh nofun
    exact triple_assign hr hc _ _ names each all
  | conditional conditions bodies last =>
    exact (triple_conditional hr _ conditions bodies last).aside home
  | whileLoop cond inner => exact (triple_whileLoop hr cond inner).aside home
  | forLoop names each source inner last =>
    cases atHome hh nofun
    exact triple_forLoop hr hc names each source inner last
  | tryBlock inner unnamed handled last final =>
    exact (triple_tryBlock hr inner unnamed handled last final).aside home
  | connective all =>
    exact ((triple_connective hr _ _ all _).pre fun _ hp => ⟨hp, .only .bool⟩).aside home
  | define inner =>
    cases atHome hh nofun
    exact triple_define inner
  | useModule =>
    cases atHome hh nofun
    exact triple_useModule hr hc _ _
  | delete each =>
    cases atHome hh nofun
    exact triple_delete hr _ each

end Operations

/-! ## The evaluator -/

/-- Who has no fuel left does nothing. -/
theorem exhausted_faithful (g : Ground) : exhausted.Faithful g where
  operation _ _ := triple_throw _
  expr _ := triple_throw _
  call := triple_throw _
  loop _ := triple_throw _

/-- **Whatever runs, the world stays sound.** -/
theorem ofFuel_faithful (g : Ground) (fuel : Nat) : (ofFuel fuel).Faithful g := by
  -- all four entries of the runner at once, as each of them is run by the others
  induction fuel with
  | zero => exact exhausted_faithful g
  | succ fuel ih =>
    have contained := ofFuel_contained fuel
    refine ⟨triple_execute ih contained, triple_evaluate ih, triple_callFunction ih contained _ _ _,
      fun hstep => triple_bind hstep fun goesOn => ?_⟩
    split
    · exact (ih.loop hstep).pre fun _ hp => hp.1
    · exact triple_pure fun _ _ => trivial

end Runner

end ValueShell
