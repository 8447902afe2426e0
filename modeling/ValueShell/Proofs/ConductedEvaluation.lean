/-
  Every rule of the evaluator keeps to its conduct.

  For each rule there is one lemma: the rule follows a conduct, given that the conduct admits the tasks that the
  rule runs and the places of its own failures.  What it may absorb is asked only of the rules that are
  boundaries: the bodies of loops, calls, `try`, pipelines, and the code of modules.
-/
import ValueShell.Operation.Code
import ValueShell.Proofs.Conduct
import ValueShell.Proofs.Evaluation

namespace ValueShell

open Eval

namespace Conduct

variable {C : Conduct} {r : Runner}

/-- The expressions may be evaluated in the frame. -/
def AdmitsAll (C : Conduct) (f : Frame) (es : List Expr) : Prop := ∀ e ∈ es, C.admits (.expr e f)

/-- A closure of the lambda, made in the frame, may be called as the body of a special form. -/
def AdmitsBlock (C : Conduct) (f : Frame) (body : Lambda) : Prop :=
  ∀ id captured, C.admits (.call (.closure ⟨id, body, captured, f.source, false⟩) [] .block f)

theorem AdmitsAll.head {f : Frame} {e : Expr} {es : List Expr} (h : C.AdmitsAll f (e :: es)) :
    C.admits (.expr e f) := h e List.mem_cons_self

theorem AdmitsAll.tail {f : Frame} {e : Expr} {es : List Expr} (h : C.AdmitsAll f (e :: es)) :
    C.AdmitsAll f es := fun x hx => h x (List.mem_cons_of_mem _ hx)

/-! ## Streams -/

section Streams

variable {own : Unwind → Prop}

theorem follows_put (ports : Ports) {v : Value} (hv : v.Carries C.good) :
    C.Follows r own (fun _ => put ports v) fun _ => True :=
  follows_updateStreams fun _ hs => ⟨Streams.carries_put hs ports.values hv, trivial⟩

theorem follows_writeBytes (ports : Ports) (bytes : List UInt8) :
    C.Follows r own (fun _ => writeBytes ports bytes) fun _ => True :=
  follows_updateStreams fun _ hs => ⟨Streams.carries_write hs ports.bytes bytes, trivial⟩

theorem follows_newQueue : C.Follows r own (fun _ => updateStreams fun s => s.newQueue []) fun _ => True :=
  follows_updateStreams fun _ hs => ⟨Streams.carries_newQueue hs nofun, trivial⟩

theorem follows_newBuffer : C.Follows r own (fun _ => updateStreams Streams.newBuffer) fun _ => True :=
  follows_updateStreams fun _ hs => ⟨hs, trivial⟩

/-- A value that is taken from a queue is good. -/
theorem follows_takeFrom (q : QueueId) :
    C.Follows r own (fun _ => takeFrom q) fun next => ∀ v ∈ next, v.Carries C.good := by
  refine follows_updateStreams fun (s : Streams) hs => ?_
  cases hn : s.next? q with
  | none => exact ⟨hs, nofun⟩
  | some v =>
    refine ⟨Streams.carries_skip hs q, fun x hx => ?_⟩
    cases hx
    exact Streams.carries_next? hs hn

/-- The step is given good values. -/
theorem follows_takeEach {step : Value → Runner → Eval Bool}
    (h : ∀ v, v.Carries C.good → C.Follows r own (step v) fun _ => True) (q : QueueId) (count : Nat) :
    C.Follows r own (fun r => takeEach q (fun v => step v r) count) fun _ => True := by
  induction count with
  | zero => exact follows_pure trivial
  | succ count ih =>
    refine follows_bind (follows_takeFrom q) fun next hnext => ?_
    cases next with
    | none => exact follows_pure trivial
    | some v =>
      refine follows_then (h v (hnext v rfl)) fun goesOn => ?_
      split
      · exact ih
      · exact follows_pure trivial

/-- And so it is for the values of the input. -/
theorem follows_eachInput {step : Value → Runner → Eval Bool} (ports : Ports)
    (h : ∀ v, v.Carries C.good → C.Follows r own (step v) fun _ => True) :
    C.Follows r own (fun r => eachInput ports fun v => step v r) fun _ => True := by
  unfold eachInput
  split
  · exact follows_pure trivial
  · exact follows_get fun _ _ => follows_takeEach h _ _

end Streams

/-! ## Names -/

section Names

variable {f : Frame}

/-- What a variable holds is good. -/
theorem follows_readVariable (ns name : String) :
    C.Follows r C.Own (fun _ => readVariable f ns name) fun v => v.Carries C.good := by
  refine follows_get fun w hw => ?_
  split
  · next place found => exact follows_pure (hw.valueAt found)
  · exact follows_fault _

/-- So is the function that a command name stands for. -/
theorem follows_findCommand (name : String) :
    C.Follows r C.Own (fun _ => findCommand f name) fun callable =>
      (Value.function callable).Carries C.good := by
  refine follows_get fun w hw => ?_
  split
  · exact follows_pure .external
  · next place found =>
    have carries := hw.valueAt found
    split
    · next callable here =>
      rw [here] at carries
      exact follows_pure carries
    · exact follows_fault _

/-- A good value may be written anywhere. -/
theorem follows_writePlace {own : Unwind → Prop} (place : Place) {v : Value} (hv : v.Carries C.good) :
    C.Follows r own (fun _ => writePlace place v) fun _ => True := by
  cases place with
  | cell c => exact follows_assign hv c
  | transient _ => exact follows_pure trivial
  | environment name => exact follows_tryEnvironment fun e => e.set name v

/-- A closure over a body is made of that body, and of what the frame can reach. -/
theorem follows_close {own : Unwind → Prop} (l : Lambda) (isFunction : Bool) :
    C.Follows r own (fun _ => close f l isFunction) fun callable =>
      ∃ id captured, callable = .closure ⟨id, l, captured, f.source, isFunction⟩ :=
  follows_then (follows_newScope fun s => Table.overlay (s.scope f.upScope) (s.scope f.localScope))
    fun captured => follows_then follows_newIdentity fun id => follows_pure ⟨id, captured, rfl⟩

end Names

/-! ## Expressions -/

section Expressions

variable (hr : C.Lawful r) {f : Frame}
include hr

/-- Each expression is a task of its own. -/
theorem follows_exprs {own : Unwind → Prop} {es : List Expr} (h : C.AdmitsAll f es) :
    C.Follows r own (fun r => r.exprs f es) fun vs => ∀ v ∈ vs, v.Carries C.good := by
  induction es with
  | nil => exact follows_pure nofun
  | cons e es ih =>
    refine follows_bind (follows_expr hr h.head) fun found hfound =>
      follows_bind (ih h.tail) fun rest hrest => follows_pure fun v hv => ?_
    rcases List.mem_append.mp hv with hv | hv
    · exact hfound v hv
    · exact hrest v hv

/-- An expression with one value; another number of values is reported at the expression. -/
theorem follows_single (what : String) {e : Expr} (h : C.admits (.expr e f))
    (place : C.places (f.site e.span)) :
    C.Follows r C.Own (fun r => r.single what e f) fun v => v.Carries C.good := by
  refine follows_bind (follows_expr hr h) fun found hfound => ?_
  split
  · exact follows_pure (hfound _ List.mem_cons_self)
  · exact follows_located place (follows_fault _)

/-- An expression whose value is called. -/
theorem follows_callable {e : Expr} (h : C.admits (.expr e f)) :
    C.Follows r C.Own (fun r => r.callable e f) fun callable =>
      (Value.function callable).Carries C.good := by
  refine follows_bind (follows_expr hr h) fun found hfound => ?_
  split
  · exact follows_pure (hfound _ List.mem_cons_self)
  · exact follows_fault _
  · exact follows_fault _

/-- **The body of a form is called once it is closed.** -/
theorem follows_block {own : Unwind → Prop} {body : Lambda} {label : String}
    (h : C.AdmitsBlock (f.labelled label) body) :
    C.Follows r own (fun r => r.block body label f) fun _ => True :=
  follows_bind (follows_close body false) fun callable made => by
    obtain ⟨id, captured, rfl⟩ := made
    exact follows_call hr (h id captured)

/-- An index that is not there is reported at its bracket. -/
theorem follows_indexAll {heads : List Value} (hh : ∀ v ∈ heads, v.Carries C.good)
    {bracket : IndexBracket} (h : C.AdmitsAll f bracket.items) (place : C.places (f.site bracket.span)) :
    C.Follows r C.Own (fun r => r.indexAll f heads bracket) fun vs => ∀ v ∈ vs, v.Carries C.good := by
  refine follows_bind (follows_exprs hr h) fun keys _ => ?_
  have elements (head : Value) (hhead : head ∈ heads) :
      C.Follows r C.Own
        (fun _ => keys.mapM fun key => (ofExcept (head.index key)).located (f.site bracket.span))
        fun vs => ∀ v ∈ vs, v.Carries C.good :=
    follows_mapM fun key _ => follows_located place (follows_ofExcept fun v hv => (hh head hhead).index hv)
  refine follows_bind (follows_mapM elements) fun found hfound => follows_pure fun v hv => ?_
  obtain ⟨vs, hvs, hv⟩ := List.mem_flatten.mp hv
  exact hfound vs hvs v hv

/-- The parts of a word. -/
theorem follows_compoundOnto {parts : List Expr} (h : C.AdmitsAll f parts) (texts : List String) :
    C.Follows r C.Own (fun r => r.compoundOnto f texts parts) fun _ => True := by
  induction parts generalizing texts with
  | nil => exact follows_pure trivial
  | cons part parts ih =>
    exact follows_then (follows_expr hr h.head) fun values =>
      follows_then (follows_ofExcept fun _ _ => trivial) fun texts => ih h.tail texts

/-- The pairs of a map. -/
theorem follows_mapOnto {pairs : List (Expr × Expr)}
    (h : ∀ p ∈ pairs, C.admits (.expr p.1 f) ∧ C.admits (.expr p.2 f))
    (places : ∀ p ∈ pairs, C.places (f.site p.1.span) ∧ C.places (f.site p.2.span))
    {entries : Table Value} (he : ∀ e ∈ entries, e.2.Carries C.good) :
    C.Follows r C.Own (fun r => r.mapOnto f entries pairs) fun found =>
      ∀ e ∈ found, e.2.Carries C.good := by
  -- what is in the map so far is good, and so is what an insertion puts there
  induction pairs generalizing entries with
  | nil => exact follows_pure he
  | cons pair pairs ih =>
    obtain ⟨key, value⟩ := pair
    have first := h (key, value) List.mem_cons_self
    have place := places (key, value) List.mem_cons_self
    refine follows_then (follows_single hr _ first.1 place.1) fun k =>
      follows_bind (follows_single hr _ first.2 place.2) fun v hv =>
        follows_then (follows_ofExcept fun _ _ => trivial) fun k => ?_
    refine ih (fun p hp => h p (List.mem_cons_of_mem _ hp))
      (fun p hp => places p (List.mem_cons_of_mem _ hp)) fun e hin => ?_
    rcases Table.mem_insert hin with rfl | hin
    · exact hv
    · exact he e hin

/-- A capture runs its operation with other ports. -/
theorem follows_capture {op : Operation} (h : ∀ ports, C.admits (.operation op (f.withPorts ports))) :
    C.Follows r C.Own (fun r => r.capture op f) fun vs => ∀ v ∈ vs, v.Carries C.good :=
  follows_then follows_newQueue fun q => follows_then follows_newBuffer fun b =>
    follows_then (follows_operation hr (h _)) fun _ => follows_get fun _ hw =>
      follows_pure (Streams.carries_captured hw.queues q b)

end Expressions

/-! ## Assignment -/

/-- What an element target needs: its indices, and a place up to each of its brackets. -/
structure AdmitsElement (C : Conduct) (f : Frame) (e : ElementTarget) : Prop where
  indices : C.AdmitsAll f e.indices
  upTo : ∀ level, C.places (f.site (e.spanTo level))

/-- What a target needs. -/
structure AdmitsTarget (C : Conduct) (f : Frame) (t : Target) : Prop where
  whole : C.places (f.site t.span)
  element : ∀ e, t = .element e → C.AdmitsElement f e

/-- What the left side of an assignment needs. -/
def AdmitsTargets (C : Conduct) (f : Frame) (t : Targets) : Prop :=
  ∀ x ∈ t.fixed ++ t.rest.toList, C.AdmitsTarget f x

section Assignment

variable {f : Frame}

/-- What is wrong with an element is reported at a place of its target. -/
theorem AdmitsTarget.blamed {t : Target} (h : C.AdmitsTarget f t) (e : ElementError) :
    C.places (f.site (t.blamed e)) := by
  unfold Target.blamed
  split
  · exact (h.element _ rfl).upTo _
  · exact h.whole

/-- A target that fails does so at such a place. -/
theorem follows_fail {α : Type} {Q : α → Prop} {t : Target} (h : C.AdmitsTarget f t) (e : ElementError) :
    C.Follows r C.Own (fun _ => t.fail f e) Q := follows_located (h.blamed e) (follows_fault _)

theorem follows_destination {own : Unwind → Prop} (d : Destination) {v : Value} (hv : v.Carries C.good) :
    C.Follows r own (fun _ => d.write v) fun _ => True := by
  cases d with
  | place p => exact follows_then (follows_writePlace p hv) fun _ => follows_pure trivial
  | element c path =>
    refine follows_tryCell fun cell cell' h hcell => ?_
    obtain ⟨whole, set, assigned⟩ := Cell.assignElement_eq_ok h
    rw [Cell.assign_eq assigned]
    exact hcell.setPath hv set

/-- A write to a target. -/
theorem follows_write {t : Resolved} (h : C.AdmitsTarget f t.target) {v : Value}
    (hv : v.Carries C.good) : C.Follows r C.Own (fun _ => t.write v f) fun _ => True := by
  refine follows_then (follows_destination t.destination hv) fun written => ?_
  split
  · exact follows_pure trivial
  · exact follows_fail h _

theorem follows_writeEach {ts : List Resolved} (h : ∀ t ∈ ts, C.AdmitsTarget f t.target)
    {vs : List Value} (hvs : ∀ v ∈ vs, v.Carries C.good) :
    C.Follows r C.Own (fun _ => Resolved.writeEach f ts vs) fun _ => True := by
  induction ts generalizing vs with
  | nil => exact follows_pure trivial
  | cons t ts ih =>
    cases vs with
    | nil => exact follows_pure trivial
    | cons v vs =>
      exact follows_then (follows_write (h t List.mem_cons_self) (hvs v List.mem_cons_self)) fun _ =>
        ih (fun t ht => h t (List.mem_cons_of_mem _ ht)) fun v hv => hvs v (List.mem_cons_of_mem _ hv)

/-- A name that cannot be declared is the rule's own fault. -/
theorem follows_resolveOrDeclare (ns name : String) :
    C.Follows r C.Own (fun _ => resolveOrDeclare f ns name) fun _ => True := by
  refine follows_get fun w _ => ?_
  split
  · exact follows_pure trivial
  · split
    · exact follows_updateStore fun _ hs => ⟨hs.declare name, trivial⟩
    · exact follows_fault _

variable (hr : C.Lawful r)
include hr

/-- The indices of an element are tasks. -/
theorem follows_elementPath (tooMany : Fault) {e : ElementTarget} (h : C.AdmitsElement f e) :
    C.Follows r C.Own (fun r => r.elementPath f tooMany e) fun _ => True := by
  suffices ∀ brackets level, C.AdmitsAll f (brackets.flatMap IndexBracket.items) →
      C.Follows r C.Own (fun r => Runner.elementPath.go r f tooMany e level brackets) fun _ => True from
    this e.brackets 1 h.indices
  intro brackets
  induction brackets with
  | nil => exact fun _ _ => follows_pure trivial
  | cons bracket rest ih =>
    intro level admits
    have here : C.AdmitsAll f bracket.items := fun x hx =>
      admits x (List.mem_flatMap.mpr ⟨bracket, List.mem_cons_self, hx⟩)
    have later : C.AdmitsAll f (rest.flatMap IndexBracket.items) := fun x hx => by
      obtain ⟨b, hb, hx⟩ := List.mem_flatMap.mp hx
      exact admits x (List.mem_flatMap.mpr ⟨b, List.mem_cons_of_mem _ hb, hx⟩)
    refine follows_then (follows_exprs hr here) fun keys => ?_
    split
    · exact follows_then (ih _ later) fun _ => follows_pure trivial
    · exact follows_located (h.upTo level) (follows_fault _)

/-- An element needs its base, and the tasks of its indices. -/
theorem follows_resolveElement {e : ElementTarget} (h : C.AdmitsTarget f (.element e)) :
    C.Follows r C.Own (fun r => r.resolveElement f e) fun _ => True := by
  have inner := h.element e rfl
  refine follows_get fun w _ => ?_
  split
  · exact follows_fault _
  · exact follows_located (inner.upTo 1) (follows_fault _)
  · refine follows_then (follows_elementPath hr _ inner) fun path => follows_get fun w _ => ?_
    split
    · exact follows_fail h _
    · split
      · exact follows_pure trivial
      · exact follows_pure trivial

/-- A target that is resolved is still that target. -/
theorem follows_resolveTarget {t : Target} (h : C.AdmitsTarget f t) :
    C.Follows r C.Own (fun r => r.resolveTarget f t) fun found => found.target = t := by
  refine follows_located h.whole ?_
  cases t with
  | named ns name span =>
    exact follows_then (follows_resolveOrDeclare ns name) fun _ => follows_pure rfl
  | element e => exact follows_then (follows_resolveElement hr h) fun _ => follows_pure rfl

theorem follows_resolveEach {ts : List Target} (h : ∀ t ∈ ts, C.AdmitsTarget f t) :
    C.Follows r C.Own (fun r => r.resolveEach f ts) fun found => ∀ x ∈ found, x.target ∈ ts := by
  induction ts with
  | nil => exact follows_pure nofun
  | cons t ts ih =>
    refine follows_bind (follows_resolveTarget hr (h t List.mem_cons_self)) fun first hfirst =>
      follows_bind (ih fun t ht => h t (List.mem_cons_of_mem _ ht)) fun rest hrest => follows_pure ?_
    rw [List.forall_mem_cons]
    exact ⟨hfirst ▸ List.mem_cons_self, fun x hx => List.mem_cons_of_mem _ (hrest x hx)⟩

theorem follows_resolveTargets {t : Targets} (h : C.AdmitsTargets f t) :
    C.Follows r C.Own (fun r => r.resolveTargets f t) fun found =>
      ∀ x ∈ found.fixed ++ found.rest.toList, x.target ∈ t.fixed ++ t.rest.toList := by
  have fixed : ∀ x ∈ t.fixed, C.AdmitsTarget f x := fun x hx => h x (List.mem_append_left _ hx)
  refine follows_bind (follows_resolveEach hr fixed) fun found hfound => ?_
  split
  · refine follows_pure fun x hx => List.mem_append_left _ (hfound x ?_)
    simpa using hx
  · next rest hrest =>
    have last : rest ∈ t.fixed ++ t.rest.toList := List.mem_append_right _ (by simp [hrest])
    refine follows_bind (follows_resolveTarget hr (h rest last)) fun resolved same =>
      follows_pure fun x hx => ?_
    rcases List.mem_append.mp hx with hx | hx
    · exact List.mem_append_left _ (hfound x hx)
    · obtain rfl : x = resolved := by simpa using hx
      rwa [same]

/-- The one target of a `for` or of a handler. -/
theorem follows_onlyTarget (otherwise : Fault) {t : Targets} (h : C.AdmitsTargets f t) :
    C.Follows r C.Own (fun r => r.onlyTarget f otherwise t) fun found =>
      found.target ∈ t.fixed ++ t.rest.toList := by
  refine follows_bind (follows_resolveTargets hr h) fun found hfound => ?_
  split
  · exact follows_pure (hfound _ List.mem_cons_self)
  · exact follows_fault _

/-- **An assignment** admits its values and the parts of its targets. -/
theorem follows_assignment {targets : Targets} (ht : C.AdmitsTargets f targets) {values : List Expr}
    (hv : C.AdmitsAll f values) :
    C.Follows r C.Own (fun r => r.assign targets values f) fun _ => True := by
  refine follows_bind (follows_resolveTargets hr ht) fun resolved hres =>
    follows_bind (follows_exprs hr hv) fun vs hvs => ?_
  have fixed : ∀ x ∈ resolved.fixed, C.AdmitsTarget f x.target := fun x hx =>
    ht _ (hres x (List.mem_append_left _ hx))
  dsimp only
  split
  · split
    · exact follows_writeEach fixed hvs
    · exact follows_fault _
  · next rest hrest =>
    have last : C.AdmitsTarget f rest.target :=
      ht _ (hres rest (List.mem_append_right _ (by simp [hrest])))
    split
    · exact follows_then (follows_writeEach fixed fun v hv => hvs v (List.mem_of_mem_take hv)) fun _ =>
        follows_write last (.list fun v hv => hvs v (List.mem_of_mem_drop hv))
    · exact follows_fault _

end Assignment

/-! ## Special forms -/

/-- The task may absorb the signals of loops. -/
def EndsRounds (C : Conduct) (t : Task) : Prop := ∀ s, s ≠ .return → C.absorbs t (.signal s)

/-- What a handler needs. -/
structure AdmitsHandler (C : Conduct) (f : Frame) (h : Handler) : Prop where
  target : ∀ t ∈ h.target, C.AdmitsTargets (f.labelled "try except") t
  body : C.AdmitsBlock (f.labelled "try except") h.body

section Forms

variable {f : Frame}

theorem follows_define {name : String} {body : Lambda}
    (good : ∀ id captured, C.good ⟨id, body, captured, f.source, true⟩) :
    C.Follows r C.Own (fun _ => define name body f) fun _ => True := by
  have declared : C.Follows r C.Own (fun _ => updateStore fun s =>
      ((s.declare (name ++ "~")).1, (s.declare (name ++ "~")).2.bind f.localScope (name ++ "~")
        (s.declare (name ++ "~")).1)) fun _ => True :=
    follows_updateStore fun _ hs => ⟨hs.declare _, trivial⟩
  refine follows_then declared fun c => follows_bind (follows_close body true) fun callable made => ?_
  obtain ⟨id, captured, rfl⟩ := made
  exact follows_then (follows_assign (.closure (good id captured)) c) fun _ =>
    follows_ofExcept fun _ _ => trivial

/-- What a body of a special form comes to is its call. -/
theorem comes_block {body : Lambda} {label : String} {w v : World} {t : Task} (hw : w.Carries C.good)
    (h : Runner.Comes (fun r => r.block body label f) r w t v) :
    ∃ id captured, t = .call (.closure ⟨id, body, captured, f.source, false⟩) [] .block (f.labelled label) := by
  have made : C.FollowsIn r C.Own (fun _ => close (f.labelled label) body false) _ w :=
    follows_close body false w hw
  obtain comes | ⟨callable, w', run, comes⟩ := made.comes_bind h
  · exact (not_comes_const _ comes).elim
  · obtain ⟨id, captured, rfl⟩ := made.result callable (by rw [run])
    exact ⟨id, captured, (comes_call.mp comes).1⟩

variable (hr : C.Lawful r)
include hr

/-- A condition is a task. -/
theorem follows_holds {own : Unwind → Prop} {condition : Expr} (h : C.admits (.expr condition f)) :
    C.Follows r own (fun r => r.holds condition f) fun _ => True :=
  follows_then (follows_expr hr h) fun _ => follows_pure trivial

theorem follows_optionalBlock {own : Unwind → Prop} {body : Option Lambda} {label : String}
    (h : ∀ l ∈ body, C.AdmitsBlock (f.labelled label) l) :
    C.Follows r own (fun r => r.optionalBlock body label f) fun _ => True := by
  cases body with
  | none => exact follows_pure trivial
  | some l => exact follows_block hr (h l rfl)

/-- The branches of an `if`: conditions and bodies under their labels. -/
theorem follows_conditional {own : Unwind → Prop} {otherwise : Option Lambda}
    (last : ∀ l ∈ otherwise, C.AdmitsBlock (f.labelled "if else") l) {branches : List Branch}
    (h : ∀ b ∈ branches, C.admits (.expr b.condition (f.labelled "if cond")) ∧
      C.AdmitsBlock (f.labelled "if body") b.body) :
    C.Follows r own (fun r => r.conditional otherwise f branches) fun _ => True := by
  induction branches with
  | nil => exact follows_optionalBlock hr last
  | cons branch rest ih =>
    have here := h branch List.mem_cons_self
    refine follows_then (follows_holds hr here.1) fun holds => ?_
    split
    · exact follows_block hr here.2
    · exact ih fun b hb => h b (List.mem_cons_of_mem _ hb)

/-- A round of a loop. -/
theorem follows_round {own : Unwind → Prop} {callable : Callable} {args : List Value} {mode : CallMode}
    (h : C.admits (.call callable args mode f)) (ends : C.EndsRounds (.call callable args mode f)) :
    C.Follows r own (fun r => loopBody (r.call callable args mode f)) fun _ => True :=
  follows_loopBody (follows_call hr h) fun w t v s _ comes other => by
    obtain ⟨rfl, -⟩ := comes_call.mp comes
    exact ends s other

/-- **A while loop** absorbs what breaks it or goes on with it, and nothing else. -/
theorem follows_whileLoop {own : Unwind → Prop} {condition : Expr} {body : Lambda}
    (hc : C.admits (.expr condition (f.labelled "while cond")))
    (hb : C.AdmitsBlock (f.labelled "while") body)
    (ends : ∀ callable, C.EndsRounds (.call callable [] .block (f.labelled "while"))) :
    C.Follows r own (fun r => r.whileLoop condition body f) fun _ => True := by
  refine follows_bind (follows_close body false) fun callable made => follows_loop hr ?_
  obtain ⟨id, captured, rfl⟩ := made
  refine follows_then (follows_holds hr hc) fun holds => ?_
  split
  · exact follows_round hr (hb id captured) (ends _)
  · exact follows_pure trivial

/-- **A loop over items** does the same. -/
theorem follows_forLoop {target : Targets} (ht : C.AdmitsTargets f target)
    (inside : C.AdmitsTargets (f.labelled "for") target) {iterable : Expr}
    (hi : C.admits (.expr iterable f)) (place : C.places (f.site iterable.span)) {body : Lambda}
    (hb : C.AdmitsBlock (f.labelled "for") body) {otherwise : Option Lambda}
    (last : ∀ l ∈ otherwise, C.AdmitsBlock (f.labelled "for else") l)
    (ends : ∀ callable, C.EndsRounds (.call callable [] .block (f.labelled "for"))) :
    C.Follows r C.Own (fun r => r.forLoop target iterable body otherwise f) fun _ => True := by
  refine follows_bind (follows_onlyTarget hr _ ht) fun item hitem =>
    follows_bind (follows_single hr _ hi place) fun v hv =>
      follows_bind (follows_close body false) fun callable made =>
        follows_bind (follows_located place (follows_ofExcept fun _ h => hv.elements h)) fun vs hvs => ?_
  obtain ⟨id, captured, rfl⟩ := made
  split
  · exact follows_optionalBlock hr last
  · exact follows_forEach fun element he => follows_then (follows_write (inside _ hitem) (hvs element he))
      fun _ => follows_round hr (hb id captured) (ends _)

/-- A handler gets the exception, and its body is called. -/
theorem follows_handle {handler : Handler} (h : C.AdmitsHandler f handler) (e : Exception) :
    C.Follows r C.Own (fun r => r.handle handler e f) fun _ => True := by
  unfold Runner.handle
  split
  · next target some =>
    have ht := h.target target some
    exact follows_bind (follows_onlyTarget hr _ ht) fun place hplace =>
      follows_then follows_newIdentity fun id =>
        follows_then (follows_write (ht _ hplace) .exception) fun _ => follows_block hr h.body
  · exact follows_block hr h.body

/-- The exceptions of the body are absorbed if there is a handler. -/
theorem follows_guarded {body : Lambda} (hb : C.AdmitsBlock (f.labelled "try body") body)
    {handler : Option Handler} (hh : ∀ h ∈ handler, C.AdmitsHandler f h) {otherwise : Option Lambda}
    (ho : ∀ l ∈ otherwise, C.AdmitsBlock (f.labelled "try else") l)
    (catches : handler.isSome → ∀ callable e,
      C.absorbs (.call callable [] .block (f.labelled "try body")) (.exception e)) :
    C.Follows r C.Own (fun r => r.guarded body handler otherwise f) fun _ => True := by
  refine follows_settled (follows_block hr hb) (fun res _ => ?_) fun w t v u hw comes _ through w' => ?_
  · rcases res with (s | e) | ⟨⟩
    · exact follows_throw (.inr rfl)
    · cases handler with
      | none => exact follows_throw (.inr rfl)
      | some h => exact (follows_handle hr (hh h rfl) e).mono (fun _ => .inl) fun _ => id
    · exact follows_optionalBlock hr ho
  · obtain ⟨id, captured, rfl⟩ := comes_block hw comes
    cases u with
    | signal s => rfl
    | exception e =>
      cases handler with
      | none => rfl
      | some h => exact absurd (catches rfl _ e) through

omit hr in
/-- What needs only tasks with some label needs nothing else. -/
theorem AdmitsAll.only {P : Task → Prop} {es : List Expr} (h : C.AdmitsAll f es)
    (hp : ∀ e, P (.expr e f)) : (C.only P).AdmitsAll f es := fun e he => ⟨h e he, hp e⟩

omit hr in
theorem AdmitsTargets.only {P : Task → Prop} {t : Targets} (h : C.AdmitsTargets f t)
    (hp : ∀ e, P (.expr e f)) : (C.only P).AdmitsTargets f t := fun x hx =>
  ⟨(h x hx).whole, fun e he => ⟨((h x hx).element e he).indices.only hp, ((h x hx).element e he).upTo⟩⟩

/-- Nothing that runs before the `finally` part is labelled so. -/
theorem label_of_comes_guarded {body : Lambda} (hb : C.AdmitsBlock (f.labelled "try body") body)
    {handler : Option Handler} (hh : ∀ h ∈ handler, C.AdmitsHandler f h) {otherwise : Option Lambda}
    (ho : ∀ l ∈ otherwise, C.AdmitsBlock (f.labelled "try else") l) {w v : World} {t : Task}
    (hw : w.Carries C.good) (comes : Runner.Comes (fun r => r.guarded body handler otherwise f) r w t v) :
    t.frame.label ≠ "try finally" := by
  refine ((follows_guarded (C := C.only fun t => t.frame.label ≠ "try finally") (hr.only _) ?_ ?_ ?_ ?_
    w hw).admitted t v comes).1.2
  · exact fun id captured => ⟨hb id captured, show "try body" ≠ "try finally" by decide⟩
  · intro h some
    have except : "try except" ≠ "try finally" := by decide
    exact ⟨fun t ht => ((hh h some).target t ht).only fun _ => except,
      fun id captured => ⟨(hh h some).body id captured, except⟩⟩
  · exact fun l hl id captured => ⟨ho l hl id captured, show "try else" ≠ "try finally" by decide⟩
  · exact fun _ _ _ => trivial

/-- A `finally` part may absorb whatever the other parts ended with. -/
theorem follows_tryBlock {body : Lambda} (hb : C.AdmitsBlock (f.labelled "try body") body)
    {handler : Option Handler} (hh : ∀ h ∈ handler, C.AdmitsHandler f h) {otherwise : Option Lambda}
    (ho : ∀ l ∈ otherwise, C.AdmitsBlock (f.labelled "try else") l) {finalizer : Option Lambda}
    (hf : ∀ l ∈ finalizer, C.AdmitsBlock (f.labelled "try finally") l)
    (catches : handler.isSome → ∀ callable e,
      C.absorbs (.call callable [] .block (f.labelled "try body")) (.exception e))
    (forgets : finalizer.isSome → ∀ t u, t.frame.label ≠ "try finally" → C.absorbs t u) :
    C.Follows r C.Own (fun r => r.tryBlock body handler otherwise finalizer f) fun _ => True := by
  have guarded := follows_guarded hr hb hh ho catches
  cases finalizer with
  | none => exact guarded
  | some last =>
    refine follows_settled guarded (fun res _ => ?_) fun w t v u hw comes _ through w' => ?_
    · refine follows_then (follows_block hr (hf last rfl)) fun _ => ?_
      split
      · exact follows_throw (.inr rfl)
      · exact follows_pure trivial
    · exact absurd (forgets rfl t u (label_of_comes_guarded hr hb hh ho hw comes)) through

omit hr in
/-- What a handler needs has nothing to do with what is absorbed. -/
theorem AdmitsHandler.absorbing {handler : Handler} (h : C.AdmitsHandler f handler) (A : Task → Unwind → Prop) :
    Conduct.AdmitsHandler { C with absorbs := A } f handler :=
  ⟨fun t ht x hx => ⟨(h.target t ht x hx).whole, fun e he => ⟨((h.target t ht x hx).element e he).indices,
    ((h.target t ht x hx).element e he).upTo⟩⟩, h.body⟩

/-- **A signal passes a `finally` part** that ends normally. -/
theorem tryBlock_reaches {body last : Lambda} (hb : C.AdmitsBlock (f.labelled "try body") body)
    {handler : Option Handler} (hh : ∀ h ∈ handler, C.AdmitsHandler f h) {otherwise : Option Lambda}
    (ho : ∀ l ∈ otherwise, C.AdmitsBlock (f.labelled "try else") l)
    (hf : C.AdmitsBlock (f.labelled "try finally") last)
    (catches : handler.isSome → ∀ callable e,
      C.absorbs (.call callable [] .block (f.labelled "try body")) (.exception e))
    (spares : ∀ t s, ¬C.absorbs t (.signal s)) {w v : World} {t : Task} {s : Signal}
    (hw : w.Carries C.good)
    (comes : Runner.Comes (fun r => r.tryBlock body handler otherwise (some last) f) r w t v)
    (part : t.frame.label ≠ "try finally") (ends : (r.run t v).1 = .error (.unwind (.signal s))) :
    (r.tryBlock body handler otherwise (some last) f w).1 = .error (.unwind (.signal s)) ∨
      (∃ t' v' u, Runner.Comes (fun r => r.tryBlock body handler otherwise (some last) f) r w t' v' ∧
        t'.frame.label = "try finally" ∧ (r.run t' v').1 = .error (.unwind u)) ∨
      ∃ stop : Stop, stop.Final ∧ (r.tryBlock body handler otherwise (some last) f w).1 = .error stop := by
  have guarded := follows_guarded hr hb hh ho catches w hw
  have settled := guarded.settle
  obtain comes | ⟨outcome, w', run, comes⟩ := settled.comes_bind comes
  · -- the signal is what the parts before the last one end with
    have unwinds := guarded.passes t v _ (guarded.comes_settle.mp comes) ends (Unwind.firm_signal s) (spares t s)
    rcases run : r.guarded body handler otherwise f w with ⟨stop | _, w'⟩ <;> rw [run] at unwinds
    · cases unwinds
      have here := settle_unwind run
      have hw' : w'.Carries C.good := by
        have world := guarded.world
        rwa [run] at world
      have final : C.FollowsIn r (fun _ => False) (fun r => r.block last "try finally" f) _ w' :=
        follows_block hr hf w' hw'
      have whole : r.tryBlock body handler otherwise (some last) f w =
          (r.block last "try finally" f >>= fun _ => throw (.unwind (.signal s))) w' := bind_run_ok here
      rw [whole, bind_run]
      rcases run' : r.block last "try finally" f w' with ⟨stop | _, w''⟩
      · right
        by_cases ended : stop.Final
        · exact .inr ⟨stop, ended, rfl⟩
        · left
          obtain ⟨u, rfl⟩ := stop.unwind_of_not_final ended
          obtain none | ⟨t', v', u', comes', ends', -⟩ := final.blamed u (by rw [run'])
          · exact none.elim
          · obtain ⟨id, captured, rfl⟩ := comes_block hw' comes'
            exact ⟨_, v', u', settled.comes_second here (comes_first comes'), rfl, ends'⟩
      · exact .inl rfl
    · exact nomatch unwinds
  · -- what comes after is the last part
    have hw' : w'.Carries C.good := by
      have world := settled.world
      rwa [run] at world
    have final : C.FollowsIn r (fun _ => False) (fun r => r.block last "try finally" f) _ w' :=
      follows_block hr hf w' hw'
    obtain comes | ⟨_, w'', -, comes⟩ := final.comes_bind comes
    · obtain ⟨id, captured, rfl⟩ := comes_block hw' comes
      exact absurd rfl part
    · exact (not_comes_const _ comes).elim

/-- The expressions of a connective. -/
theorem follows_connective {own : Unwind → Prop} (stopAt : Bool) {last : Value}
    (hl : last.Carries C.good) {es : List Expr} (h : C.AdmitsAll f es) :
    C.Follows r own (fun r => r.connective stopAt f last es) fun _ => True := by
  induction es generalizing last with
  | nil => exact follows_put f.ports hl
  | cons e es ih =>
    refine follows_bind (follows_expr hr h.head) fun vs hvs => ?_
    split
    · next v found => exact follows_put f.ports (hvs v (List.mem_of_find?_eq_some found))
    · refine ih ?_ h.tail
      cases hlast : vs.getLast? with
      | none => exact hl
      | some v => exact hvs v (List.mem_of_getLast? hlast)

/-- A deletion of an element. -/
theorem follows_deleteElement {e : ElementTarget} (h : C.AdmitsElement f e) :
    C.Follows r C.Own (fun r => r.deleteElement e f) fun _ => True := by
  refine follows_get fun w _ => ?_
  split
  · exact follows_fault _
  · exact follows_located (h.upTo 1) (follows_fault _)
  · refine follows_then (follows_elementPath hr _ h) fun path => ?_
    refine follows_then (follows_tryCell fun cell cell' changed hcell => ?_) fun removed => ?_
    · obtain ⟨-, rfl⟩ | ⟨whole, removed, assigned⟩ := Cell.removeElement_eq_ok changed
      · exact hcell
      · rw [Cell.assign_eq assigned]
        exact hcell.removePath removed
    · cases removed with
      | ok _ => exact follows_pure trivial
      | error error => exact follows_located (h.upTo _) (follows_fault _)
  · next v _ =>
    refine follows_then (follows_elementPath hr _ h) fun path => ?_
    cases (v.removePath path).map fun _ => () with
    | ok _ => exact follows_pure trivial
    | error error => exact follows_located (h.upTo _) (follows_fault _)

theorem follows_delete {targets : List Deletion}
    (h : ∀ e, .element e ∈ targets → C.AdmitsElement f e) :
    C.Follows r C.Own (fun r => r.delete f targets) fun _ => True := by
  induction targets with
  | nil => exact follows_pure trivial
  | cons target rest ih =>
    have rest := ih fun e he => h e (List.mem_cons_of_mem _ he)
    cases target with
    | localName name => exact follows_then (follows_unbind _ _) fun _ => rest
    | environment name =>
      exact follows_then (follows_tryEnvironment fun e => e.unset name) fun _ =>
        follows_then (follows_ofExcept fun _ _ => trivial) fun _ => rest
    | element e => exact follows_then (follows_deleteElement hr (h e List.mem_cons_self)) fun _ => rest

end Forms

/-! ## Imports -/

/-- The code of a source is what its reading compiles to. -/
def Compiles (source : Source) (op : Operation) : Prop :=
  ∃ builtins chunk, readChunk source.code = .ok chunk ∧ compileUnit builtins [] chunk = .ok op

/-- What the import of modules in a frame needs: it may run the code of a module, whose signals do not leave it. -/
structure AdmitsModules (C : Conduct) (f : Frame) : Prop where
  imports : C.imports
  code : ∀ source op path ns nothing, Compiles source op →
    C.admits (.operation op (f.ofModule source path ns nothing))
  encloses : ∀ op g s, C.absorbs (.operation op g) (.signal s)

section Imports

variable {f : Frame}

theorem follows_compileModule (builtins : List String) (source : Source) :
    C.Follows r C.Own (fun _ => compileModule builtins source) (Compiles source) := by
  unfold compileModule
  split
  · exact follows_stop trivial
  · exact follows_fault _
  · next chunk read =>
    split
    · exact follows_fault _
    · next op compiled => exact follows_pure ⟨builtins, chunk, read, compiled⟩

variable (hr : C.Lawful r) (h : C.AdmitsModules f)
include hr h

/-- What leaves the code of a module is an exception with a place. -/
theorem follows_runModule {own : Unwind → Prop} {source : Source} (path : String) (ns : ScopeId)
    {op : Operation} (compiled : Compiles source op) :
    C.Follows r own (fun r => r.runModule f source path ns op) fun _ => True := by
  refine follows_then (follows_newScope fun _ => []) fun nothing => follows_then (follows_note _) fun _ => ?_
  have code : C.Follows r (fun _ => False) _ _ := follows_operation hr (h.code source op path ns nothing compiled)
  refine (follows_mapStop code (fun stop cut => ?_) (fun w t v u _ comes firm through => ?_)
    (fun _ _ _ => False.elim) fun w t v u₀ u u' _ comes changed permits => .inr ?_).mono
    (fun _ => False.elim) fun _ => id
  · cases stop with
    | unwind u => exact cut.elim
    | _ => rfl
  · obtain ⟨rfl, -⟩ := comes_operation.mp comes
    cases u with
    | signal s => exact absurd (h.encloses _ _ s) through
    | exception e => exact congrArg (Stop.unwind ∘ Unwind.exception) (Unwind.escaping_of_firm firm _)
  · obtain ⟨rfl, -⟩ := comes_operation.mp comes
    cases changed
    cases permits with
    | same => exact .escaped h.imports rfl
    | placed bare place => exact .placed bare place
    | @escaped op' g imports whole =>
      rw [Unwind.escaping_of_firm (Unwind.firm_escaping (g.site op'.span) u₀)]
      exact .escaped imports whole

/-- A load of a module runs its code, and a signal ends there. -/
theorem follows_load (path : String) (ns : ScopeId) :
    C.Follows r C.Own (fun r => r.load f path ns) fun _ => True :=
  follows_get fun _ _ => follows_then (follows_ofExcept (Q := fun _ => True) fun _ _ => trivial) fun source =>
    follows_bind (follows_compileModule _ source) fun _ => follows_runModule hr h path ns

theorem follows_loadNew (path : String) :
    C.Follows r C.Own (fun r => r.loadNew f path) fun _ => True := by
  refine follows_then (follows_newScope fun _ => []) fun ns => follows_then (follows_updateModules _) fun _ => ?_
  refine follows_settled (follows_load hr h path ns) (fun res _ => ?_) fun _ _ _ _ _ _ _ _ _ => rfl
  cases res with
  | ok _ =>
    exact follows_then (follows_updateModules _) fun _ => follows_then (follows_note _) fun _ => follows_pure trivial
  | error u =>
    exact follows_then (follows_updateModules _) fun _ => follows_then (follows_note _) fun _ =>
      follows_throw (.inr rfl)

/-- An import loads a module, or else it does not run anything. -/
theorem follows_fetchModule (path : String) : C.Follows r C.Own (fun r => r.fetchModule f path) fun _ => True := by
  refine follows_get fun w _ => ?_
  split
  · exact follows_pure trivial
  · exact follows_pure trivial
  · exact follows_stop trivial
  · exact follows_loadNew hr h path

theorem follows_importModule (target : String) :
    C.Follows r C.Own (fun r => r.importModule f target) fun _ => True :=
  follows_then (follows_ofExcept (Q := fun _ => True) fun _ _ => trivial) fun path =>
    follows_then (follows_fetchModule hr h path) fun _ => follows_then (follows_note _) fun _ => follows_pure trivial

theorem follows_useModule (name path : String) :
    C.Follows r C.Own (fun r => r.useModule name path f) fun _ => True :=
  follows_then (follows_importModule hr h path) fun _ => follows_bindNew _ _ .ns

end Imports

/-! ## Calls -/

section Calls

variable {f : Frame}

/-- Parameters are bound to good values. -/
theorem follows_bindEach (scope : ScopeId) (names : List String) {vs : List Value}
    (hv : ∀ v ∈ vs, v.Carries C.good) : C.Follows r C.Own (fun _ => bindEach scope names vs) fun _ => True := by
  induction names generalizing vs with
  | nil => exact follows_pure trivial
  | cons name names ih =>
    cases vs with
    | nil => exact follows_pure trivial
    | cons v vs =>
      have declared : C.Follows r C.Own (fun _ => updateStore fun s => s.declare name) fun _ => True :=
        follows_updateStore fun _ hs => ⟨hs.declare name, trivial⟩
      have bound (c : CellId) : C.Follows r C.Own (fun _ => updateStore fun s => ((), s.bind scope name c))
          fun _ => True := follows_updateStore fun _ hs => ⟨hs, trivial⟩
      exact follows_then declared fun c => follows_then (follows_assign (hv v List.mem_cons_self) c) fun _ =>
        follows_then (follows_ofExcept (Q := fun _ => True) fun _ _ => trivial) fun _ => follows_then (bound c) fun _ =>
          ih fun x hx => hv x (List.mem_cons_of_mem _ hx)

/-- An argument too many or too few is the rule's own fault. -/
theorem follows_bindParameters (scope : ScopeId) (l : Lambda) {args : List Value}
    (hv : ∀ v ∈ args, v.Carries C.good) :
    C.Follows r C.Own (fun _ => bindParameters scope l args) fun _ => True := by
  unfold bindParameters
  dsimp only
  split
  · split
    · exact follows_bindEach scope _ hv
    · exact follows_fault _
  · split
    · exact follows_then (follows_bindEach scope _ hv) fun _ =>
        follows_bindNew _ _ (.list fun v hin => hv v (List.mem_of_mem_drop hin))
    · exact follows_fault _

theorem follows_bindArguments (scope : ScopeId) (l : Lambda) {args : List Value}
    (hv : ∀ v ∈ args, v.Carries C.good) :
    C.Follows r C.Own (fun _ => bindArguments scope l args) fun _ => True := by
  have all : C.Follows r C.Own (fun _ => updateStore fun s => ((), s.bindNew scope "args" (.plain (.list args))))
      fun _ => True := follows_bindNew _ _ (.list hv)
  unfold bindArguments
  split
  · exact follows_then (follows_bindParameters scope l hv) fun _ => all
  · exact all

theorem follows_startProgram (path : String) (words : List String) :
    C.Follows r C.Own (fun _ => startProgram path words) fun _ => True := by
  refine follows_get fun w hw => follows_then (Q := fun _ => True) (follows_const fun _ _ => ?_) fun _ =>
    follows_pure trivial
  refine ⟨?_, fun _ _ => trivial, fun _ ended => nomatch ended⟩
  show (w.afterProgram _).Carries C.good
  cases Command.start w.streams.programs w.environment w.files path words w.streams.input with
  | error e => exact ⟨hw.cells, hw.queues⟩
  | ok result => exact ⟨hw.cells, hw.queues⟩

/-- A program that fails is the rule's own fault. -/
theorem follows_runExternal (name : String) (args : List Value) :
    C.Follows r C.Own (fun _ => runExternal name args f) fun _ => True := by
  refine follows_get fun w _ => ?_
  split
  · exact follows_fault _
  · refine follows_then (follows_ofExcept (Q := fun _ => True) fun _ _ => trivial) fun words =>
      follows_then (follows_startProgram _ words) fun ended => ?_
    split
    · exact follows_fault _
    · refine follows_then (follows_writeBytes _ _) fun _ => ?_
      split
      · exact follows_pure trivial
      · exact follows_fault _

variable (hr : C.Lawful r)
include hr

/-- The call of a function absorbs `return`, as a command does. -/
theorem follows_callClosure {c : Closure} {args : List Value} {mode : CallMode}
    (hv : ∀ v ∈ args, v.Carries C.good)
    (h : ∀ scope, C.admits (.operation c.lambda.body (f.inside c mode scope)))
    (completes : c.isFunction || mode == .command → ∀ t, C.absorbs t (.signal .return)) :
    C.Follows r C.Own (fun r => r.callClosure c args mode f) fun _ => True := by
  refine follows_then (follows_newScope fun _ => []) fun scope =>
    follows_then (follows_bindArguments scope c.lambda hv) fun _ => ?_
  unfold Runner.runBody
  split
  · next boundary => exact follows_returning (follows_operation hr (h scope)) (completes boundary)
  · exact follows_operation hr (h scope)

/-- `each` calls its function with the values of its input. -/
theorem follows_each {args : List Value} (hv : ∀ v ∈ args, v.Carries C.good)
    (h : ∀ callable v, (Value.function callable).Carries C.good → v.Carries C.good →
      C.admits (.call callable [v] .command f))
    (ends : ∀ callable args, C.EndsRounds (.call callable args .command f)) :
    C.Follows r C.Own (fun r => r.each args f) fun _ => True := by
  unfold Runner.each
  split
  · exact follows_fault _
  · next callable rest =>
    have good : (Value.function callable).Carries C.good := hv _ List.mem_cons_self
    have step {v : Value} (hv : v.Carries C.good) :
        C.Follows r C.Own (fun r => loopBody (r.call callable [v] .command f)) fun _ => True :=
      follows_round hr (h callable v good hv) (ends _ _)
    dsimp only
    split
    · exact follows_eachInput f.ports fun v hv => step hv
    · next inputs =>
      have items : inputs.Carries C.good := hv _ (List.mem_cons_of_mem _ List.mem_cons_self)
      exact follows_bind (follows_ofExcept fun _ h => items.elements h) fun vs hvs =>
        follows_forEach fun v hin => step (hvs v hin)
    · exact follows_fault _
  · exact follows_fault _

end Calls

/-! ## Builtins -/

section Builtins

variable {f : Frame} {own : Unwind → Prop}

theorem follows_countInput (ports : Ports) :
    C.Follows r own (fun _ => Builtin.countInput ports) fun _ => True := by
  unfold Builtin.countInput
  split
  · exact follows_pure trivial
  · have taken : C.Follows r own (fun _ => eachInput ports fun _ => return true) fun _ => True :=
      follows_eachInput ports fun _ _ => follows_pure trivial
    exact follows_get fun _ _ => follows_then taken fun _ => follows_pure trivial

theorem follows_inputText (ports : Ports) :
    C.Follows r C.Own (fun _ => Builtin.inputText ports) fun _ => True := by
  unfold Builtin.inputText
  split
  · exact follows_pure trivial
  · refine follows_get fun w _ => ?_
    generalize (w.streams.waiting _).length = left
    generalize "" = text
    induction left generalizing text with
    | zero => exact follows_pure trivial
    | succ left ih =>
      refine follows_then (follows_takeFrom _) fun next => ?_
      cases next with
      | none => exact follows_pure trivial
      | some v => exact follows_then (follows_ofExcept (Q := fun _ => True) fun _ _ => trivial) fun line => ih _

theorem follows_putJson (ports : Ports) (text : String) :
    C.Follows r C.Own (fun _ => Builtin.putJson ports text) fun _ => True := by
  refine follows_then (follows_forM fun v hv => follows_put ports (readJson_carries _ v hv)) fun _ => ?_
  split
  · exact follows_pure trivial
  · exact follows_stop trivial
  · exact follows_fault _

/-- **Builtins**: `each` is the only one that calls anything. -/
theorem follows_builtin (hr : C.Lawful r) (b : Builtin) {args : List Value}
    (hv : ∀ v ∈ args, v.Carries C.good)
    (h : ∀ callable v, (Value.function callable).Carries C.good → v.Carries C.good →
      C.admits (.call callable [v] .command f))
    (ends : b = .each → ∀ callable args, C.EndsRounds (.call callable args .command f)) :
    C.Follows r C.Own (fun r => r.builtin b args f) fun _ => True := by
  have out {v : Value} (hv : v.Carries C.good) : C.Follows r C.Own (fun _ => put f.ports v) fun _ => True :=
    follows_put f.ports hv
  have puts {vs : List Value} (hv : ∀ v ∈ vs, v.Carries C.good) :
      C.Follows r C.Own (fun _ => vs.forM (put f.ports)) fun _ => True :=
    follows_forM fun v hin => out (hv v hin)
  have given {α : Type} {res : Except Fault α} : C.Follows r C.Own (fun _ => ofExcept res) fun _ => True :=
    follows_ofExcept fun _ _ => trivial
  have signal (s : Signal) : C.Follows r C.Own (fun _ =>
      (if args.isEmpty then throw (.unwind (.signal s)) else fault .arityMismatch : Eval Unit)) fun _ => True := by
    split
    · exact follows_throw (own_signal s)
    · exact follows_fault _
  unfold Runner.builtin
  cases b with
  | put => exact puts hv
  | echo => exact follows_writeBytes _ _
  | print => exact follows_writeBytes _ _
  | kindOf => exact follows_forM fun v _ => out .text
  | nop => exact follows_pure trivial
  | fail => exact follows_then given fun _ => follows_fault _
  | «return» => exact signal _
  | «break» => exact signal _
  | «continue» => exact signal _
  | exit => exact follows_then given fun _ => follows_stop trivial
  | not => exact follows_then given fun _ => out .bool
  | toBool => exact follows_then given fun _ => out .bool
  | equal => exact out .bool
  | numbersEqual => exact follows_then given fun _ => out .bool
  | less => exact follows_then given fun _ => out .bool
  | add => exact follows_then given fun _ => out .number
  | subtract => exact follows_then given fun _ => follows_then given fun _ => out .number
  | count =>
    dsimp only
    split
    · exact follows_then (follows_countInput _) fun _ => out .number
    · exact follows_then given fun _ => out .number
    · exact follows_fault _
  | all =>
    dsimp only
    split
    · exact follows_eachInput _ fun v hv => follows_then (out hv) fun _ => follows_pure trivial
    · next v =>
      exact follows_bind (follows_ofExcept fun _ h => (hv v List.mem_cons_self).elements h) fun vs => puts
    · exact follows_fault _
  | each => exact follows_each hr hv h (ends rfl)
  | fromJson =>
    dsimp only
    split
    · exact follows_then (follows_inputText _) fun _ => follows_putJson _ _
    · exact follows_then given fun _ => follows_putJson _ _
    · exact follows_fault _
  | resolve =>
    refine follows_then given fun name => ?_
    split
    · exact out .text
    · refine follows_get fun w _ => ?_
      split
      · exact out .text
      · exact out .text
  | external => exact follows_then given fun _ => out .external
  | hasExternal => exact follows_then given fun _ => follows_get fun _ _ => out .bool
  | searchExternal =>
    refine follows_then given fun name => follows_get fun w _ => ?_
    split
    · exact out .text
    · exact follows_fault _

end Builtins

/-! ## Operations -/

section Operations

variable {f : Frame} (hr : C.Lawful r)
include hr

/-- Each operation of a chunk is a task. -/
theorem follows_chunk {own : Unwind → Prop} {ops : List Operation}
    (h : ∀ op ∈ ops, C.admits (.operation op f)) : C.Follows r own (fun r => r.chunk f ops) fun _ => True := by
  induction ops with
  | nil => exact follows_pure trivial
  | cons op rest ih =>
    exact follows_then (follows_operation hr (h op List.mem_cons_self)) fun _ =>
      ih fun op ho => h op (List.mem_cons_of_mem _ ho)

/-- An earlier stage decides what a pipeline ends with, whatever a later one does. -/
theorem follows_stages {own : Unwind → Prop} {ops : List Operation}
    (h : ∀ op ∈ ops, ∀ ports, C.admits (.operation op (f.withPorts ports)))
    (absorbs : ∀ t u, C.absorbs t u) (input : Option QueueId) :
    C.Follows r own (fun r => r.stages f input ops) fun _ => True := by
  induction ops generalizing input with
  | nil => exact follows_pure trivial
  | cons stage rest ih =>
    cases rest with
    | nil => exact follows_operation hr (h stage List.mem_cons_self _)
    | cons next rest =>
      have last {res : Except Unwind Unit} {own : Unwind → Prop} :
          C.Follows r (fun u => own u ∨ res = .error u) (fun _ => resume res) fun _ => True := by
        cases res with
        | ok _ => exact follows_pure trivial
        | error u => exact follows_throw (.inr rfl)
      refine follows_then follows_newQueue fun q => follows_settled
        (follows_operation hr (h stage List.mem_cons_self _)) (fun outcome _ => ?_)
        fun _ t _ u _ _ _ through => absurd (absorbs t u) through
      refine follows_settled ((ih (fun op ho => h op (List.mem_cons_of_mem _ ho)) _).mono (fun _ => .inl) fun _ => id)
        (fun later _ => ?_) fun _ t _ u _ _ _ through => absurd (absorbs t u) through
      cases outcome with
      | ok _ => exact last
      | error u => exact follows_throw (.inl (.inr rfl))

/-- **An unwind of a stage passes** the pipeline, unless an earlier stage did not succeed. -/
theorem stages_reaches {ops : List Operation}
    (h : ∀ op ∈ ops, ∀ ports, C.admits (.operation op (f.withPorts ports)))
    (absorbs : ∀ t u, C.absorbs t u) {input : Option QueueId} {w v : World} {t : Task} {u : Unwind}
    (hw : w.Carries C.good) (comes : Runner.Comes (fun r => r.stages f input ops) r w t v)
    (ends : (r.run t v).1 = .error (.unwind u)) :
    ∃ before stage after g, ops = before ++ stage :: after ∧ t = .operation stage g ∧
      ((r.stages f input ops w).1 = .error (.unwind u) ∨
        (∃ first ∈ before, ∃ g' v' u', Runner.Comes (fun r => r.stages f input ops) r w (.operation first g') v' ∧
          (r.run (.operation first g') v').1 = .error (.unwind u')) ∨
        ∃ stop : Stop, stop.Final ∧ (r.stages f input ops w).1 = .error stop) := by
  induction ops generalizing input w with
  | nil => exact absurd comes (not_comes_const (return ()))
  | cons stage rest ih =>
    cases rest with
    | nil =>
      obtain ⟨rfl, rfl⟩ := comes_operation.mp comes
      rw [run_operation, map_eq_error] at ends
      exact ⟨[], stage, [], _, rfl, rfl, .inl ends⟩
    | cons next rest =>
      have later : ∀ op ∈ next :: rest, ∀ ports, C.admits (.operation op (f.withPorts ports)) := fun op ho =>
        h op (List.mem_cons_of_mem _ ho)
      have new : C.FollowsIn r C.Own (fun _ => updateStreams fun s => s.newQueue []) _ w := follows_newQueue w hw
      obtain comes | ⟨q, w₁, run₁, comes⟩ := new.comes_bind comes
      · exact (not_comes_const _ comes).elim
      have hw₁ : w₁.Carries C.good := by
        have world := new.world
        rwa [run₁] at world
      have here : C.FollowsIn r C.Own _ _ w₁ :=
        follows_operation hr (h stage List.mem_cons_self ⟨input, .queue q, f.ports.bytes⟩) w₁ hw₁
      have whole : r.stages f input (stage :: next :: rest) w = _ := bind_run_ok run₁
      obtain comes | ⟨outcome, w₂, run₂, comes⟩ := here.settle.comes_bind comes
      · -- it is this stage that unwinds; the later ones only have to come to an end
        obtain ⟨rfl, rfl⟩ := comes_operation.mp (here.comes_settle.mp comes)
        refine ⟨[], stage, next :: rest, _, rfl, rfl, ?_⟩
        rw [run_operation, map_eq_error] at ends
        rcases run : r.operation stage _ v with ⟨stop | _, w₂⟩ <;> rw [run] at ends
        · cases ends
          rw [whole, bind_run_ok (settle_unwind run)]
          obtain ⟨res, w₃, settled, -⟩ | ⟨stop, w₃, final, settled, -⟩ :=
            settle_cases (r.stages f (some q) (next :: rest)) w₂
          · rw [bind_run_ok settled]
            exact .inl rfl
          · rw [bind_run, settled]
            exact .inr (.inr ⟨stop, final, rfl⟩)
        · exact nomatch ends
      · have hw₂ : w₂.Carries C.good := by
          have world := here.settle.world
          rwa [run₂] at world
        have rests : C.FollowsIn r C.Own _ _ w₂ := follows_stages hr later absorbs (some q) w₂ hw₂
        rw [bind_run_ok run₂] at whole
        obtain comes | ⟨res, w₃, -, comes⟩ := rests.settle.comes_bind comes
        · obtain ⟨before, stage', after, g, split, same, result⟩ :=
            ih later hw₂ (rests.comes_settle.mp comes)
          refine ⟨stage :: before, stage', after, g, congrArg _ split, same, ?_⟩
          obtain unwinds | ⟨first, hf, g', v', u', comes', ends'⟩ | ⟨stop, final, stops⟩ := result
          · rcases run : r.stages f (some q) (next :: rest) w₂ with ⟨stop | _, w₃⟩ <;> rw [run] at unwinds
            · cases unwinds
              rw [whole, bind_run_ok (settle_unwind run)]
              cases outcome with
              | ok _ => exact .inl rfl
              | error u' =>
                refine .inr (.inl ⟨stage, List.mem_cons_self, _, w₁, u', new.comes_second run₁
                  (comes_first (here.comes_settle.mpr (comes_operation.mpr ⟨rfl, rfl⟩))), ?_⟩)
                rw [run_operation, map_eq_error]
                obtain ⟨res', _, settled, run'⟩ | ⟨_, _, -, settled, -⟩ := settle_cases (r.operation stage _) w₁
                · rw [run₂] at settled
                  cases settled
                  rw [run']
                  rfl
                · exact nomatch run₂.symm.trans settled
            · exact nomatch unwinds
          · exact .inr (.inl ⟨first, List.mem_cons_of_mem _ hf, g', v', u', new.comes_second run₁
              (here.settle.comes_second run₂ (comes_first (rests.comes_settle.mpr comes'))), ends'⟩)
          · rcases run : r.stages f (some q) (next :: rest) w₂ with ⟨stop' | _, w₃⟩ <;> rw [run] at stops
            · cases stops
              rw [whole, bind_run, settle_final final run]
              exact .inr (.inr ⟨stop, final, rfl⟩)
            · exact nomatch stops
        · exact (not_comes_const _ comes).elim

theorem follows_callCommand {head : CallHead} (hh : ∀ e ∈ head.parts, C.admits (.expr e f)) {args : List Expr}
    (ha : C.AdmitsAll f args)
    (h : ∀ callable values, (Value.function callable).Carries C.good → (∀ v ∈ values, v.Carries C.good) →
      C.admits (.call callable values .command f)) :
    C.Follows r C.Own (fun r => r.callCommand head args f) fun _ => True := by
  have called (callable : Callable) (hc : (Value.function callable).Carries C.good) :
      C.Follows r C.Own (fun r => do r.call callable (← r.exprs f args) .command f) fun _ => True :=
    follows_bind (follows_exprs hr ha) fun values hvs => follows_call hr (h callable values hc hvs)
  cases head with
  | name name => exact (follows_bind (follows_findCommand name) called).congr fun _ _ => rfl
  | value e =>
    exact (follows_bind (follows_callable hr (hh e List.mem_cons_self)) called).congr fun _ _ => rfl

end Operations

end Conduct

end ValueShell
