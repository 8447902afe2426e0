/-
  Where the code that runs comes from.

  Code belongs to a source, and it runs in frames of that source: the body of a closure in the source
  of the closure, wherever it is called, and the code of a module in that of the module.  A `Provenance` is a
  relation between sources and code for which that can be said: it goes from code to its parts, and from
  a module to what it compiles to.

  Given a provenance, every evaluation keeps to a conduct.  It runs code that belongs to the source of
  its frame and calls closures that belong to theirs; it absorbs what boundaries absorb; and it places its own
  failures in the source of its frame, at one of the spans of its code.
-/
import ValueShell.Eval.Boundary
import ValueShell.Operation.Marks
import ValueShell.Proofs.ConductedEvaluation

namespace ValueShell

open Eval Conduct

/-- The task looks at how the other one ended before it ends itself. -/
inductive Task.Settles : Task → Task → Prop
  | finalizer {body last : Lambda} {handler : Option Handler} {otherwise : Option Lambda} {span : Span}
      {f : Frame} {inner : Task} (part : inner.frame.label ≠ "try finally") :
      Settles (.operation (.tryBlock body handler otherwise (some last) span) f) inner
  | pipeline {stages : List Operation} {span : Span} {f : Frame} {inner : Task} :
      Settles (.operation (.pipeline stages span) f) inner

/-- The code of a task; a call has none of its own. -/
def Task.code? : Task → Option Code
  | operation op _ => some (.operation op)
  | expr e _ => some (.expr e)
  | call .. => none

/-- The span is a mark in the code of the task. -/
def Task.Marks (t : Task) (span : Span) : Prop := ∃ whole ∈ t.code?, ∃ c : Code, c.Inside whole ∧ c.Marks span

/-- The task imports a module. -/
def Task.Imports (t : Task) : Prop := ∃ name path span f, t = .operation (.useModule name path span) f

/-- **Which code belongs to which source.** -/
structure Provenance where
  has : Source → Code → Prop
  child : ∀ {source code part}, has source code → part ∈ code.children → has source part
  compiled : ∀ {source op}, Compiles source op → has source (.operation op)

namespace Provenance

variable (P : Provenance)

/-- The closure belongs to its source. -/
def Good (c : Closure) : Prop := P.has c.source (.lambda c.lambda)

/-- The task is in a frame of the source that its code belongs to.  Only bodies of special forms are called as
blocks. -/
def Admits : Task → Prop
  | .operation op f => P.has f.source (.operation op)
  | .expr e f => P.has f.source (.expr e)
  | .call callable args mode _ => (Value.function callable).Carries P.Good ∧
      (∀ v ∈ args, v.Carries P.Good) ∧
      (mode = .block → ∃ c, callable = .closure c ∧ c.isFunction = false)

/-- What a task is held to.  Whatever is in another source is an operation. -/
def conduct (outer : Task) : Conduct where
  good := P.Good
  admits t := P.Admits t ∧ (t.frame.source = outer.frame.source ∨ ∃ op f, t = .operation op f)
  places site := site.source = outer.frame.source ∧ outer.Marks site.span
  absorbs t u := outer.Absorbs t u ∨ outer.Settles t
  imports := outer.Imports

/-- **A runner that keeps to the provenance**, whatever it runs. -/
structure Lawful (r : Runner) : Prop where
  loop : ∃ fuel, r.loop = (Runner.ofFuel fuel).loop
  keeps : ∀ t w, P.Admits t → w.Carries P.Good →
    (r.run t w).2.Carries P.Good ∧ ∀ vs, (r.run t w).1 = .ok vs → ∀ v ∈ vs, v.Carries P.Good

variable {P} {r : Runner} {f : Frame}

/-- A lawful runner keeps to the conduct of every task. -/
theorem Lawful.conduct (h : P.Lawful r) (outer : Task) : (P.conduct outer).Lawful r :=
  ⟨h.loop, fun t w admitted => h.keeps t w admitted.1⟩

/-! ## The parts of what is run -/

/-- What an operation is made of has the same provenance. -/
theorem Admits.child {op : Operation} {d : Code} (h : P.Admits (.operation op f))
    (hd : d ∈ (Code.operation op).children) : P.has f.source d := P.child h hd

section Parts

variable {outer : Task} (here : outer.frame.source = f.source)
include here

/-- An operation of the source may be run, -/
theorem admits_operation {op : Operation} (h : P.has f.source (.operation op)) :
    (P.conduct outer).admits (.operation op f) := ⟨h, .inl here.symm⟩

/-- and so may an expression. -/
theorem admits_expr {e : Expr} (h : P.has f.source (.expr e)) : (P.conduct outer).admits (.expr e f) :=
  ⟨h, .inl here.symm⟩

theorem admits_all {es : List Expr} (h : ∀ e ∈ es, P.has f.source (.expr e)) :
    (P.conduct outer).AdmitsAll f es := fun e he => admits_expr here (h e he)

/-- The body of a form has the provenance of the form. -/
theorem admits_block {body : Lambda} {label : String} (h : P.has f.source (.lambda body)) :
    (P.conduct outer).AdmitsBlock (f.labelled label) body := fun _ _ =>
  ⟨⟨.closure h, nofun, fun _ => ⟨_, rfl, rfl⟩⟩, .inl here.symm⟩

/-- A good closure may be called. -/
theorem admits_call {callable : Callable} {args : List Value}
    (hc : (Value.function callable).Carries P.Good) (hv : ∀ v ∈ args, v.Carries P.Good) :
    (P.conduct outer).admits (.call callable args .command f) := ⟨⟨hc, hv, nofun⟩, .inl here.symm⟩

/-- A failure may be placed at what the code marks, -/
theorem places_mark {code : Code} (whole : outer.code? = some code) {span : Span} (marks : code.Marks span) :
    (P.conduct outer).places (f.site span) := ⟨here.symm, code, whole, code, .self, marks⟩

/-- and at its parts. -/
theorem places_part {code : Code} (whole : outer.code? = some code) {e : Expr} (part : .expr e ∈ code.children) :
    (P.conduct outer).places (f.site e.span) := ⟨here.symm, code, whole, .expr e, .child part .self, .expr⟩

/-- The targets of an operation are parts of it. -/
theorem admits_targets {op : Operation} (whole : outer.code? = some (.operation op)) {targets : Targets}
    (of : op.Assigns targets) (parts : ∀ e ∈ targets.parts, P.has f.source (.expr e)) :
    (P.conduct outer).AdmitsTargets f targets := fun t ht =>
  { whole := places_mark here whole (.target of ht)
    element := fun e same => by
      subst same
      refine ⟨admits_all here fun x hx => parts x ?_, fun level => places_mark here whole (.element of ht level)⟩
      exact List.mem_flatMap.mpr ⟨.element e, ht, hx⟩ }

section Try

variable {body : Lambda} {handler : Option Handler} {otherwise finalizer : Option Lambda} {span : Span}
  (h : P.has f.source (.operation (.tryBlock body handler otherwise finalizer span)))
include h

/-- The body of a `try` is a part of it. -/
theorem admits_body : (P.conduct outer).AdmitsBlock (f.labelled "try body") body :=
  admits_block here (P.child h (List.mem_append_left _ List.mem_cons_self))

theorem admits_last {l : Lambda} (hl : l ∈ otherwise.toList ++ finalizer.toList) (label : String) :
    (P.conduct outer).AdmitsBlock (f.labelled label) l :=
  admits_block here (P.child h (List.mem_append_right _ (List.mem_map_of_mem hl)))

theorem admits_otherwise : ∀ l ∈ otherwise, (P.conduct outer).AdmitsBlock (f.labelled "try else") l :=
  fun _ hl => admits_last here h (List.mem_append_left _ (Option.mem_toList.mpr hl)) _

theorem admits_finalizer : ∀ l ∈ finalizer, (P.conduct outer).AdmitsBlock (f.labelled "try finally") l :=
  fun _ hl => admits_last here h (List.mem_append_right _ (Option.mem_toList.mpr hl)) _

/-- So is its handler. -/
theorem admits_handler (whole : outer.code? = some (.operation (.tryBlock body handler otherwise finalizer span))) :
    ∀ x ∈ handler, (P.conduct outer).AdmitsHandler f x := by
  intro x hx
  have part {d : Code} (hd : d ∈ Code.ofHandler x) : P.has f.source d :=
    P.child h (List.mem_append_left _ (List.mem_cons_of_mem _
      (List.mem_flatMap.mpr ⟨x, Option.mem_toList.mpr hx, hd⟩)))
  refine ⟨fun t ht => ?_, admits_block here (part (List.mem_append_right _ List.mem_cons_self))⟩
  obtain ⟨target, inner⟩ := x
  cases ht
  cases hx
  refine admits_targets (f := f.labelled "try except") here whole .handler fun e he => part ?_
  exact List.mem_append_left _ (List.mem_map_of_mem (List.mem_flatMap.mpr ⟨t, List.mem_cons_self, he⟩))

end Try

end Parts

/-! ## The rules -/

section Rules

variable (hr : P.Lawful r)
include hr

/-- **Expressions** keep to the conduct. -/
theorem follows_evaluate {e : Expr} (h : P.has f.source (.expr e)) :
    (P.conduct (.expr e f)).Follows r (P.conduct (.expr e f)).Own (fun r => r.evaluate e f)
      fun vs => ∀ v ∈ vs, v.Carries P.Good := by
  have lawful := hr.conduct (.expr e f)
  have here : (Task.expr e f).frame.source = f.source := rfl
  have part {d : Code} (hd : d ∈ (Code.expr e).children) : P.has f.source d := P.child h hd
  refine follows_located (places_mark here rfl .expr) ?_
  cases e with
  | literal text span => exact follows_pure (List.forall_mem_singleton.mpr .text)
  | reference ref span =>
    refine follows_bind (follows_readVariable ref.ns ref.name) fun v hv => ?_
    split
    · exact follows_ofExcept fun vs hvs => hv.elements hvs
    · exact follows_pure (List.forall_mem_singleton.mpr hv)
  | index head brackets span =>
    have inner {x : Expr} (hx : x ∈ head :: brackets.flatMap IndexBracket.items) : P.has f.source (.expr x) :=
      part (List.mem_map_of_mem hx)
    refine follows_bind (follows_expr lawful (admits_expr here (inner List.mem_cons_self))) fun heads hh =>
      follows_foldlM hh fun vs b hb hvs => follows_indexAll lawful hvs (admits_all here fun x hx => inner ?_)
        (places_mark here rfl (.bracket hb))
    exact List.mem_cons_of_mem _ (List.mem_flatMap.mpr ⟨b, hb, hx⟩)
  | list items span =>
    have all := admits_all here fun x (hx : x ∈ items) => part (List.mem_map_of_mem hx)
    exact follows_bind (follows_exprs lawful all) fun vs hvs =>
      follows_pure (List.forall_mem_singleton.mpr (.list hvs))
  | map pairs span =>
    have both (p : Expr × Expr) (hp : p ∈ pairs) : .expr p.1 ∈ (Code.expr (.map pairs span)).children ∧
        .expr p.2 ∈ (Code.expr (.map pairs span)).children :=
      ⟨List.mem_flatMap.mpr ⟨p, hp, List.mem_cons_self⟩,
        List.mem_flatMap.mpr ⟨p, hp, List.mem_cons_of_mem _ List.mem_cons_self⟩⟩
    refine follows_bind (follows_mapOnto lawful
      (fun p hp => ⟨admits_expr here (part (both p hp).1), admits_expr here (part (both p hp).2)⟩)
      (fun p hp => ⟨places_part here rfl (both p hp).1, places_part here rfl (both p hp).2⟩) nofun)
      fun entries he => ?_
    exact follows_pure (List.forall_mem_singleton.mpr (.map he))
  | lambda l =>
    refine follows_bind (follows_close l false) fun callable made => follows_pure ?_
    obtain ⟨id, captured, rfl⟩ := made
    exact List.forall_mem_singleton.mpr (.closure (part List.mem_cons_self))
  | capture op span =>
    exact follows_capture lawful fun ports => admits_operation (f := f.withPorts ports) here (part List.mem_cons_self)
  | compound parts span =>
    refine follows_then (follows_compoundOnto lawful (admits_all here fun x hx => part (List.mem_map_of_mem hx)) _)
      fun texts => follows_pure fun v hv => ?_
    obtain ⟨text, -, rfl⟩ := List.mem_map.mp hv
    exact .text
  | sequence parts span =>
    exact follows_exprs lawful (admits_all here fun x hx => part (List.mem_map_of_mem hx))

/-- **Calls** do. -/
theorem follows_callFunction {callable : Callable} {args : List Value} {mode : CallMode}
    (h : P.Admits (.call callable args mode f)) :
    (P.conduct (.call callable args mode f)).Follows r (P.conduct (.call callable args mode f)).Own
      (fun r => r.callFunction callable args mode f) fun _ => True := by
  have lawful := hr.conduct (.call callable args mode f)
  obtain ⟨hc, hv, block⟩ := h
  cases callable with
  | closure c =>
    have good : P.Good c := by cases hc; assumption
    refine follows_callClosure lawful hv (fun scope => ⟨P.child good List.mem_cons_self, .inr ⟨_, _, rfl⟩⟩)
      fun boundary t => .inl (.signal ?_)
    -- a block is no function, so a call that `return` ends is one as a command
    cases mode with
    | command => exact .function
    | block =>
      obtain ⟨c', same, notFunction⟩ := block rfl
      cases same
      rw [notFunction] at boundary
      exact nomatch boundary
  | builtin b =>
    refine follows_builtin lawful b hv (fun callable v hc hv => ?_) fun each callable' args' s hs => ?_
    · have here : (Task.call (.builtin b) args mode f).frame.source = f.source := rfl
      exact admits_call here hc (List.forall_mem_singleton.mpr hv)
    · subst each
      exact .inl (.signal (.round hs .each))
  | external name => exact follows_runExternal name args

/-- **Operations** do. -/
theorem follows_execute {op : Operation} (h : P.has f.source (.operation op)) :
    (P.conduct (.operation op f)).Follows r (P.conduct (.operation op f)).Own (fun r => r.execute op f)
      fun _ => True := by
  have lawful := hr.conduct (.operation op f)
  have here : (Task.operation op f).frame.source = f.source := rfl
  have part {d : Code} (hd : d ∈ (Code.operation op).children) : P.has f.source d := P.child h hd
  refine follows_located (places_mark here rfl .operation) ?_
  cases op with
  | chunk ops span =>
    exact follows_chunk lawful fun op ho => admits_operation here (part (List.mem_map_of_mem ho))
  | pipeline ops span =>
    exact follows_stages lawful (fun op ho ports => admits_operation (f := f.withPorts ports) here
      (part (List.mem_map_of_mem ho))) (fun t u => .inr .pipeline) _
  | call head args span =>
    refine follows_callCommand lawful
      (fun e he => admits_expr here (part (List.mem_map_of_mem (List.mem_append_left _ he))))
      (admits_all here fun e he => part (List.mem_map_of_mem (List.mem_append_right _ he))) ?_
    exact fun callable values hc hvs => admits_call here hc hvs
  | assign targets values span =>
    exact follows_assignment lawful
      (admits_targets here rfl .assign fun e he => part (List.mem_map_of_mem (List.mem_append_left _ he)))
      (admits_all here fun e he => part (List.mem_map_of_mem (List.mem_append_right _ he)))
  | conditional branches otherwise span =>
    refine follows_conditional lawful (fun l hl => admits_block here (part ?_)) fun b hb =>
      ⟨admits_expr (f := f.labelled "if cond") here (part ?_), admits_block here (part ?_)⟩
    · exact List.mem_append_right _ (List.mem_map_of_mem (Option.mem_toList.mpr hl))
    · exact List.mem_append_left _ (List.mem_flatMap.mpr ⟨b, hb, List.mem_cons_self⟩)
    · exact List.mem_append_left _ (List.mem_flatMap.mpr ⟨b, hb, List.mem_cons_of_mem _ List.mem_cons_self⟩)
  | whileLoop condition body span =>
    exact follows_whileLoop lawful (admits_expr (f := f.labelled "while cond") here (part List.mem_cons_self))
      (admits_block here (part (List.mem_cons_of_mem _ List.mem_cons_self)))
      fun callable s hs => .inl (.signal (.round hs .whileLoop))
  | forLoop target iterable body otherwise span =>
    have inTarget (e : Expr) (he : e ∈ target.parts) : P.has f.source (.expr e) :=
      part (List.mem_append_left _ (List.mem_append_left _ (List.mem_map_of_mem he)))
    have middle {d : Code} (hd : d ∈ [Code.expr iterable, .lambda body]) :
        d ∈ (Code.operation (.forLoop target iterable body otherwise span)).children :=
      List.mem_append_left _ (List.mem_append_right _ hd)
    have source := middle List.mem_cons_self
    refine follows_forLoop lawful (admits_targets here rfl .forLoop inTarget)
      (admits_targets (f := f.labelled "for") here rfl .forLoop inTarget) (admits_expr here (part source))
      (places_part here rfl source) (admits_block here (part (middle (List.mem_cons_of_mem _ List.mem_cons_self))))
      (fun l hl => admits_block here (part ?_)) fun callable s hs => .inl (.signal (.round hs (.forLoop rfl)))
    exact List.mem_append_right _ (List.mem_map_of_mem (Option.mem_toList.mpr hl))
  | tryBlock body handler otherwise finalizer span =>
    refine follows_tryBlock lawful (admits_body here h) (admits_handler here h rfl) (admits_otherwise here h)
      (admits_finalizer here h) (fun some callable e => ?_) fun some t u label => ?_
    · obtain ⟨handler, rfl⟩ := Option.isSome_iff_exists.mp some
      exact .inl (.caught rfl)
    · obtain ⟨finalizer, rfl⟩ := Option.isSome_iff_exists.mp some
      exact .inr (.finalizer label)
  | connective stopAt args span =>
    exact follows_connective lawful stopAt .bool (admits_all here fun e he => part (List.mem_map_of_mem he))
  | define name body span => exact follows_define fun id captured => part List.mem_cons_self
  | useModule name path span =>
    refine follows_useModule lawful
      ⟨⟨name, path, span, f, rfl⟩, fun source op path ns nothing compiled => ?_, fun op g s => ?_⟩ name path
    · exact ⟨P.compiled compiled, .inr ⟨_, _, rfl⟩⟩
    · exact .inl (.signal .module)
  | delete targets span =>
    refine follows_delete lawful fun e he => ⟨admits_all here fun x hx => part ?_, fun level =>
      places_mark here rfl (.deletion he level)⟩
    exact List.mem_map_of_mem (List.mem_flatMap.mpr ⟨.element e, he, hx⟩)

/-- **Every evaluation keeps to its conduct.** -/
theorem follows_perform {t : Task} (h : P.Admits t) :
    (P.conduct t).Follows r (P.conduct t).Own (fun r => r.perform t) fun vs => ∀ v ∈ vs, v.Carries P.Good := by
  cases t with
  | operation op f => exact follows_then (follows_execute hr h) fun _ => follows_pure nofun
  | expr e f => exact follows_evaluate hr h
  | call callable args mode f => exact follows_then (follows_callFunction hr h) fun _ => follows_pure nofun

end Rules

/-! ## The evaluator -/

/-- The evaluator keeps to the provenance. -/
theorem lawful_ofFuel (fuel : Nat) : P.Lawful (.ofFuel fuel) := by
  refine ⟨⟨fuel, rfl⟩, ?_⟩
  induction fuel with
  | zero =>
    intro t w _ hw
    cases t with
    | operation op f => exact ⟨hw, nofun⟩
    | expr e f => exact ⟨hw, nofun⟩
    | call callable args mode f => exact ⟨hw, nofun⟩
  | succ fuel ih =>
    intro t w admitted hw
    have inner : P.Lawful (.ofFuel fuel) := ⟨⟨fuel, rfl⟩, ih⟩
    have follows := follows_perform inner admitted w hw
    rw [Runner.run_ofFuel]
    exact ⟨follows.world, follows.result⟩

end Provenance

end ValueShell
