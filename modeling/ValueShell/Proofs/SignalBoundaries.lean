/-
  Signals reach the nearest boundary.

  A signal goes from the builtin that raises it to the nearest boundary for it, since nothing in between absorbs it
  (`Leads.arrives`).  What is left is what each boundary makes of it.  For a loop this is shown along the rule of the
  loop: whatever comes before the round are expressions, which have come to an end; the round itself is settled; and
  after it the loop either stops at once or goes on as after any other round.
-/
import Mathlib
import ValueShell.Eval.Boundary
import ValueShell.Proofs.Passing

namespace ValueShell

open Eval

/-- A predicate of all closures holds of those in a world. -/
theorem World.carries_all {P : Closure → Prop} (h : ∀ c, P c) (w : World) : w.Carries P :=
  ⟨fun _ cell _ => cell.value.carries_all h, fun _ _ _ v _ => v.carries_all h⟩

namespace Conduct

/-! ## Conducts that ask nothing of closures -/

/-- Nothing is asked. -/
def anything : Conduct := ⟨fun _ => True, fun _ => True, fun _ => True, fun _ _ => True, True⟩

/-- Only expressions are evaluated. -/
def expressions : Conduct := { anything with admits := fun t => ∃ e f, t = .expr e f }

variable {r : Runner} {own : Unwind → Prop} {α β : Type} {rule : Runner → Eval α} {Q : α → Prop}
  {next : α → Runner → Eval β} {t : Task} {w v w' : World} {f : Frame}

/-- A conduct to which every closure is good is kept by every runner that loops as the evaluator does. -/
theorem lawful_of_true {C : Conduct} (h : ∀ c, C.good c) (loop : ∃ fuel, r.loop = (Runner.ofFuel fuel).loop) :
    C.Lawful r :=
  ⟨loop, fun _ _ _ _ => ⟨World.carries_all h _, fun _ _ v _ => v.carries_all h⟩⟩

theorem admitsTarget_anything (target : Target) : anything.AdmitsTarget f target :=
  ⟨trivial, fun _ _ => ⟨fun _ _ => trivial, fun _ => trivial⟩⟩

theorem admitsTarget_expressions (target : Target) : expressions.AdmitsTarget f target :=
  ⟨trivial, fun _ _ => ⟨fun _ _ => ⟨_, _, rfl⟩, fun _ => trivial⟩⟩

/-- What a rule comes to, it comes to after the parts that run nothing. -/
theorem after_const {x : Eval α} (hx : anything.Follows r anything.Own (fun _ => x) Q)
    (comes : Runner.Comes (fun r => x >>= fun a => next a r) r w t v)
    {R : Except Stop β × World → Prop}
    (h : ∀ a w', Runner.Comes (next a) r w' t v → R (next a r w')) : R ((x >>= fun a => next a r) w) := by
  obtain comes | ⟨a, w', run, comes⟩ := (hx w (World.carries_all (fun _ => trivial) w)).comes_bind comes
  · exact (not_comes_const _ comes).elim
  · rw [bind_run_ok run]
    exact h a w' comes

/-- To look at the world first brings up nothing. -/
theorem after_get {next : World → Runner → Eval β}
    (comes : Runner.Comes (fun r => get >>= fun w => next w r) r w t v) {R : Except Stop β × World → Prop}
    (h : Runner.Comes (next w) r w t v → R (next w r w)) : R ((get >>= fun w => next w r) w) := h comes

/-- What is no expression, a rule comes to after its expressions. -/
theorem past (call : ∀ e f, t ≠ .expr e f) (hx : expressions.Follows r own rule Q)
    (comes : Runner.Comes (fun r => rule r >>= fun a => next a r) r w t v)
    {R : Except Stop β × World → Prop}
    (h : ∀ a w', Runner.Comes (next a) r w' t v → R (next a r w')) : R ((rule r >>= fun a => next a r) w) := by
  have first := hx w (World.carries_all (fun _ => trivial) w)
  obtain comes | ⟨a, w', run, comes⟩ := first.comes_bind comes
  · obtain ⟨e, f, same⟩ := (first.admitted t v comes).1
    exact absurd same (call e f)
  · rw [bind_run_ok run]
    exact h a w' comes

/-- What only evaluates expressions does not depend on what is no expression. -/
theorem apart_expressions (call : ∀ e f, t ≠ .expr e f) (hx : expressions.Follows r own rule Q)
    (v : World) (answer : Except Stop (List Value) × World) : rule (r.answering t v answer) = rule r := by
  funext w
  have here := hx w (World.carries_all (fun _ => trivial) w)
  refine here.apart t v answer fun comes => ?_
  obtain ⟨e, f, same⟩ := (here.admitted t v comes).1
  exact call e f same

/-! ## Rounds -/

section Round

variable {callable : Callable} {args : List Value} {mode : CallMode}

/-- What a round comes to is its call. -/
theorem comes_round (loop : ∃ fuel, r.loop = (Runner.ofFuel fuel).loop)
    (comes : Runner.Comes (fun r => loopBody (r.call callable args mode f)) r w t v) :
    t = .call callable args mode f ∧ v = w := by
  have follows : anything.FollowsIn r (fun _ => True) (fun r => r.call callable args mode f) _ w :=
    follows_call (lawful_of_true (fun _ => trivial) loop) trivial w (World.carries_all (fun _ => trivial) w)
  exact comes_call.mp (follows.comes_of (fun outcome => (loopBody (fun _ => outcome) w).1) comes)

/-- A task that is a call fails as its call does. -/
theorem call_error {stop : Stop} (h : r.run (.call callable args mode f) w = (.error stop, w')) :
    r.call callable args mode f w = (.error stop, w') := by
  rw [run_call] at h
  rcases run : r.call callable args mode f w with ⟨stop' | a, w''⟩ <;> rw [run] at h <;> cases h
  rfl

/-- **What a loop makes of its body's signal**: it goes on, it is broken off, or it is left with the return. -/
theorem round_signal {s : Signal} (h : r.run (.call callable args mode f) w = (.error (.unwind (.signal s)), w')) :
    loopBody (r.call callable args mode f) w = match s with
      | .return => (.error (.unwind (.signal .return)), w')
      | .break => (.ok false, w')
      | .continue => (.ok true, w') := by
  have settled : settle (r.call callable args mode f) w = _ := settle_unwind (call_error h)
  rw [loopBody, bind_run_ok settled]
  cases s <;> rfl

end Round

theorem follows_body (C : Conduct) (l : Lambda) (f : Frame) :
    C.Follows r C.Own (fun _ => close f l false) fun _ => True := (follows_close l false).any

/-! ## Loops that are broken off -/

/-- A loop over items is broken off if a step is, in which the task comes up. -/
theorem forEach_broken {items : List α} {step : α → Runner → Eval Bool}
    (follows : ∀ a ∈ items, anything.Follows r anything.Own (step a) fun _ => True)
    (h : ∀ a ∈ items, ∀ w, Runner.Comes (step a) r w t v → step a r w = (.ok false, w'))
    (comes : Runner.Comes (fun r => forEach (fun a => step a r) items) r w t v) :
    forEach (fun a => step a r) items w = (.ok (), w') := by
  induction items generalizing w with
  | nil => exact (not_comes_const _ comes).elim
  | cons item rest ih =>
    have first := follows item List.mem_cons_self w (World.carries_all (fun _ => trivial) w)
    obtain comes | ⟨goesOn, w₁, run, comes⟩ := first.comes_bind comes
    · exact bind_run_ok (h item List.mem_cons_self w comes)
    · rw [forEach, bind_run_ok run]
      cases goesOn with
      | false => exact (not_comes_const _ comes).elim
      | true =>
        exact ih (fun a ha => follows a (List.mem_cons_of_mem _ ha))
          (fun a ha => h a (List.mem_cons_of_mem _ ha)) comes

/-- So is a loop over the values of a queue. -/
theorem takeEach_broken {q : QueueId} {step : Value → Runner → Eval Bool} {count : Nat}
    (follows : ∀ x, anything.Follows r anything.Own (step x) fun _ => True)
    (h : ∀ x w, Runner.Comes (step x) r w t v → step x r w = (.ok false, w'))
    (comes : Runner.Comes (fun r => takeEach q (fun x => step x r) count) r w t v) :
    takeEach q (fun x => step x r) count w = (.ok (), w') := by
  induction count generalizing w with
  | zero => exact (not_comes_const _ comes).elim
  | succ count ih =>
    have taken : anything.FollowsIn r anything.Own (fun _ => takeFrom q) _ w :=
      follows_takeFrom q w (World.carries_all (fun _ => trivial) w)
    obtain comes | ⟨next, w₁, run, comes⟩ := taken.comes_bind comes
    · exact (not_comes_const _ comes).elim
    · rw [takeEach, bind_run_ok run]
      cases next with
      | none => exact (not_comes_const _ comes).elim
      | some x =>
        obtain comes | ⟨goesOn, w₂, run, comes⟩ :=
          (follows x w₁ (World.carries_all (fun _ => trivial) w₁)).comes_bind comes
        · exact bind_run_ok (h x w₁ comes)
        · dsimp only
          rw [bind_run_ok run]
          cases goesOn with
          | false => exact (not_comes_const _ comes).elim
          | true => exact ih comes

/-- And so is a loop without a list, by induction on its rounds. -/
theorem loop_broken (loop : ∃ fuel, r.loop = (Runner.ofFuel fuel).loop) {step : Runner → Eval Bool}
    (follows : anything.Follows r anything.Own step fun _ => True)
    (h : ∀ w, Runner.Comes step r w t v → step r w = (.ok false, w'))
    (comes : Runner.Comes (fun r => r.loop (step r)) r w t v) : r.loop (step r) w = (.ok (), w') := by
  obtain ⟨fuel, same⟩ := loop
  replace comes : Runner.Comes (fun r => (Runner.ofFuel fuel).loop (step r)) r w t v :=
    (comes_congr fun r' same' => by rw [same', same]).mp comes
  rw [same]
  clear same
  induction fuel generalizing w with
  | zero => exact (not_comes_const _ comes).elim
  | succ fuel ih =>
    obtain comes | ⟨goesOn, w₁, run, comes⟩ :=
      (follows w (World.carries_all (fun _ => trivial) w)).comes_bind comes
    · exact bind_run_ok (h w comes)
    · show (step r >>= _) w = _
      rw [bind_run_ok run]
      cases goesOn with
      | false => exact (not_comes_const _ comes).elim
      | true => exact ih comes

section Broken

variable (loop : ∃ fuel, r.loop = (Runner.ofFuel fuel).loop)
  (broken : r.run t v = (.error (.unwind (.signal .break)), w'))
include loop broken

/-- A round is broken off whose call ends with the signal to do so. -/
theorem round_broken {callable : Callable} {args : List Value} {mode : CallMode}
    (comes : Runner.Comes (fun r => loopBody (r.call callable args mode f)) r w t v) :
    loopBody (r.call callable args mode f) w = (.ok false, w') := by
  obtain ⟨rfl, rfl⟩ := comes_round loop comes
  exact round_signal broken

omit broken in
theorem anything_round {callable : Callable} {args : List Value} {mode : CallMode} :
    anything.Follows r anything.Own (fun r => loopBody (r.call callable args mode f)) fun _ => True :=
  follows_round (lawful_of_true (fun _ => trivial) loop) trivial fun _ _ => trivial

/-- **A broken while loop ends well**; the condition cannot be where the signal comes from, as it is no call. -/
theorem whileLoop_broken (call : ∀ e g, t ≠ .expr e g) {condition : Expr} {body : Lambda}
    (comes : Runner.Comes (fun r => r.whileLoop condition body f) r w t v) :
    r.whileLoop condition body f w = (.ok (), w') := by
  have holds {C : Conduct} (h : ∀ c, C.good c) (admits : C.admits (.expr condition (f.labelled "while cond"))) :
      C.Follows r C.Own (fun r => r.holds condition (f.labelled "while cond")) fun _ => True :=
    follows_holds (lawful_of_true h loop) admits
  refine past call (follows_body expressions body _) comes (R := (· = (.ok (), w'))) fun closure w₁ comes => ?_
  refine loop_broken loop (follows_then (holds (C := anything) (fun _ => trivial) trivial) fun goesOn => ?_)
    (fun w comes => ?_) comes
  · split
    · exact anything_round loop
    · exact follows_pure trivial
  · refine past call (holds (fun _ => trivial) ⟨_, _, rfl⟩) comes (R := (· = (.ok false, w')))
      fun goesOn w₂ comes => ?_
    cases goesOn with
    | false => exact (not_comes_const _ comes).elim
    | true => exact round_broken loop broken comes

/-- In a `for` only the call of its body is a round. -/
theorem forLoop_broken (call : ∀ e g, t ≠ .expr e g) (round : t.frame.label = "for") {target : Targets}
    {iterable : Expr} {body : Lambda} {otherwise : Option Lambda}
    (comes : Runner.Comes (fun r => r.forLoop target iterable body otherwise f) r w t v) :
    r.forLoop target iterable body otherwise f w = (.ok (), w') := by
  have lawful : expressions.Lawful r := lawful_of_true (fun _ => trivial) loop
  refine past call (follows_onlyTarget lawful _ fun x _ => admitsTarget_expressions x) comes
    (R := (· = (.ok (), w'))) fun item w₁ comes => ?_
  refine past call (follows_single lawful _ ⟨_, _, rfl⟩ trivial) comes (R := (· = (.ok (), w'))) fun x w₂ comes => ?_
  refine past call (follows_body expressions body _) comes (R := (· = (.ok (), w'))) fun closure w₃ comes => ?_
  have elements : expressions.Follows r expressions.Own
      (fun _ => (ofExcept x.elements).located (f.site iterable.span)) fun _ => True :=
    follows_located trivial (follows_ofExcept fun _ _ => trivial)
  refine past call elements comes (R := (· = (.ok (), w'))) fun elements w₄ comes => ?_
  have written {C : Conduct} (h : ∀ g x, C.AdmitsTarget g x) (hg : ∀ c, C.good c) (element : Value) :
      C.Follows r C.Own (fun _ => item.write element (f.labelled "for")) fun _ => True :=
    follows_write (h _ _) (element.carries_all hg)
  split at comes
  · next none =>
    -- the `else` part is called, too, but under another label
    cases otherwise with
    | none => exact (not_comes_const _ comes).elim
    | some last =>
      obtain ⟨id, captured, rfl⟩ := comes_block (C := anything) (World.carries_all (fun _ => trivial) w₄) comes
      exact absurd round (show "for else" ≠ "for" by decide)
  · next some =>
    rw [if_neg some]
    refine forEach_broken (fun element _ => ?_) (fun element _ w comes => ?_) comes
    · exact follows_then (written (fun _ => admitsTarget_anything) (fun _ => trivial) element) fun _ =>
        anything_round loop
    · exact past call (written (fun _ => admitsTarget_expressions) (fun _ => trivial) element) comes
        (R := (· = (.ok false, w'))) fun _ _ comes => round_broken loop broken comes

/-- A call that `each` makes is a round. -/
theorem each_broken (call : ∀ e g, t ≠ .expr e g) {args : List Value}
    (comes : Runner.Comes (fun r => r.each args f) r w t v) : r.each args f w = (.ok (), w') := by
  unfold Runner.each at comes ⊢
  split at comes
  · exact (not_comes_const _ comes).elim
  · next callable rest =>
    dsimp only at comes ⊢
    split at comes
    · unfold eachInput at comes ⊢
      split at comes
      · exact (not_comes_const _ comes).elim
      · next q given =>
        rw [given]
        exact takeEach_broken (fun x => anything_round loop)
          (fun x w comes => round_broken loop broken comes) comes
    · next inputs =>
      have elements : expressions.Follows r expressions.Own (fun _ => ofExcept inputs.elements) fun _ => True :=
        follows_ofExcept fun _ _ => trivial
      exact past call elements comes (R := (· = (.ok (), w'))) fun items w₁ comes =>
        forEach_broken (fun x _ => anything_round loop)
          (fun x _ w comes => round_broken loop broken comes) comes
    · exact (not_comes_const _ comes).elim
  · exact (not_comes_const _ comes).elim

end Broken

/-! ## Loops that are resumed -/

section Resumed

variable (loop : ∃ fuel, r.loop = (Runner.ofFuel fuel).loop)
  (resumed : r.run t v = (.error (.unwind (.signal .continue)), w'))
include resumed

/-- A round that is left by `continue` is like one that ended. -/
theorem round_resumed {callable : Callable} {args : List Value} {mode : CallMode} :
    loopBody ((r.answering t v (.ok [], w')).call callable args mode f) = loopBody (r.call callable args mode f) := by
  funext w
  by_cases here : t = .call callable args mode f ∧ v = w
  · obtain ⟨rfl, rfl⟩ := here
    have answered : (r.answering _ v (.ok [], w')).call callable args mode f v = (.ok (), w') :=
      if_pos ⟨rfl, rfl⟩
    rw [round_signal resumed, loopBody, bind_run_ok (settle_ok answered)]
    rfl
  · exact congrArg (fun outcome => loopBody (fun _ => outcome) w) (if_neg here)

include loop

/-- To go on with a while loop is to run it as if the round had ended well. -/
theorem whileLoop_resumed (call : ∀ e g, t ≠ .expr e g) {condition : Expr} {body : Lambda} :
    (r.answering t v (.ok [], w')).whileLoop condition body f = r.whileLoop condition body f := by
  have tested : expressions.Follows r expressions.Own (fun r => r.holds condition (f.labelled "while cond"))
      fun _ => True := follows_holds (lawful_of_true (fun _ => trivial) loop) ⟨_, _, rfl⟩
  have holds := apart_expressions call tested v (.ok [], w')
  unfold Runner.whileLoop
  simp only [holds, round_resumed resumed]
  rfl

/-- The same for a loop over items. -/
theorem forLoop_resumed (call : ∀ e g, t ≠ .expr e g) (round : t.frame.label = "for") {target : Targets}
    {iterable : Expr} {body : Lambda} {otherwise : Option Lambda} :
    (r.answering t v (.ok [], w')).forLoop target iterable body otherwise f =
      r.forLoop target iterable body otherwise f := by
  have lawful : expressions.Lawful r := lawful_of_true (fun _ => trivial) loop
  have item := apart_expressions call
    (follows_onlyTarget (f := f) (t := target) lawful .onlyOneVariable fun x _ => admitsTarget_expressions x)
    v (.ok [], w')
  have iterated := apart_expressions call
    (follows_single (f := f) (e := iterable) lawful "iterable" ⟨_, _, rfl⟩ trivial) v (.ok [], w')
  have last : (r.answering t v (.ok [], w')).optionalBlock otherwise "for else" f =
      r.optionalBlock otherwise "for else" f := by
    cases otherwise with
    | none => rfl
    | some last =>
      have apart (callable : Callable) :
          (r.answering t v (.ok [], w')).call callable [] .block (f.labelled "for else") =
            r.call callable [] .block (f.labelled "for else") := by
        refine funext fun w => if_neg fun same => ?_
        rw [same.1] at round
        exact absurd round (show "for else" ≠ "for" by decide)
      simp only [Runner.optionalBlock, Runner.block, apart]
  unfold Runner.forLoop
  simp only [item, iterated, last, round_resumed resumed]

omit loop in
/-- And for `each`. -/
theorem each_resumed {args : List Value} : (r.answering t v (.ok [], w')).each args f = r.each args f := by
  unfold Runner.each
  simp only [round_resumed resumed]

end Resumed

/-! ## Calls that are completed -/

theorem anything_operation (loop : ∃ fuel, r.loop = (Runner.ofFuel fuel).loop) (op : Operation) (g : Frame)
    (w : World) : anything.FollowsIn r anything.Own (fun r => r.operation op g) (fun _ => True) w :=
  follows_operation (lawful_of_true (fun _ => trivial) loop) trivial w (World.carries_all (fun _ => trivial) w)

/-- **A call that returns is completed.** -/
theorem callClosure_completed (loop : ∃ fuel, r.loop = (Runner.ofFuel fuel).loop) {c : Closure} {args : List Value}
    (completed : r.run t v = (.error (.unwind (.signal .return)), w'))
    (comes : Runner.Comes (fun r => r.callClosure c args .command f) r w t v) :
    r.callClosure c args .command f w = (.ok (), w') := by
  have boundary : (c.isFunction || CallMode.command == .command) = true := by
    cases c.isFunction <;> rfl
  refine after_const (follows_newScope fun _ => []) comes (R := (· = (.ok (), w'))) fun scope w₁ comes => ?_
  refine after_const (follows_bindArguments scope c.lambda fun v _ => v.carries_all fun _ => trivial) comes
    (R := (· = (.ok (), w'))) fun _ w₂ comes => ?_
  simp only [Runner.runBody, boundary, if_true] at comes ⊢
  have body := anything_operation loop c.lambda.body (f.inside c .command scope) w₂
  obtain ⟨rfl, rfl⟩ := comes_operation.mp
    (body.comes_of (fun outcome => (returning (fun _ => outcome) w₂).1) comes)
  rw [run_operation] at completed
  rcases run : r.operation c.lambda.body (f.inside c .command scope) v with ⟨stop | a, w₃⟩ <;>
    rw [run] at completed <;> cases completed
  rw [returning, bind_run_ok (settle_unwind run)]
  rfl

/-! ## Modules that are left -/

/-- **What leaves the code of a module** is an exception, placed at the code. -/
def Escapes (s : Signal) (t : Task) (outcome : Except Stop α × World) : Prop :=
  ∃ op g, t = .operation op g ∧
    outcome.1 = .error (.unwind (.exception ⟨s.escaped, some (g.site op.span)⟩))

/-- It leaves what goes on with nothing else. -/
theorem escapes_first {s : Signal} (hx : anything.Follows r own rule Q)
    (const : ∀ a w', ¬Runner.Comes (next a) r w' t v)
    (comes : Runner.Comes (fun r => rule r >>= fun a => next a r) r w t v)
    (h : Runner.Comes rule r w t v → Escapes s t (rule r w)) : Escapes s t ((rule r >>= fun a => next a r) w) := by
  obtain comes | ⟨a, w', -, comes⟩ := (hx w (World.carries_all (fun _ => trivial) w)).comes_bind comes
  · obtain ⟨op, g, same, ends⟩ := h comes
    exact ⟨op, g, same, bind_error ends⟩
  · exact absurd comes (const a w')

theorem admitsModules_anything (f : Frame) : anything.AdmitsModules f :=
  ⟨trivial, fun _ _ _ _ _ _ => trivial, fun _ _ _ => trivial⟩

section Modules

variable {s : Signal} (loop : ∃ fuel, r.loop = (Runner.ofFuel fuel).loop)
  (ends : (r.run t v).1 = .error (.unwind (.signal s)))
include loop ends

/-- The signal that leaves the code of a module has become an exception at the module's end. -/
theorem runModule_escapes {source : Source} {path : String} {ns : ScopeId} {op : Operation}
    (comes : Runner.Comes (fun r => r.runModule f source path ns op) r w t v) :
    Escapes s t (r.runModule f source path ns op w) := by
  refine after_const (follows_newScope fun _ => []) comes (R := Escapes s t) fun nothing w₁ comes => ?_
  refine after_const (follows_note _) comes (R := Escapes s t) fun _ w₂ comes => ?_
  have code := anything_operation loop op (f.ofModule source path ns nothing) w₂
  obtain ⟨rfl, rfl⟩ := comes_operation.mp
    (code.comes_of (fun outcome => (enclosed _ (fun _ => outcome) w₂).1) comes)
  rw [run_operation, map_eq_error] at ends
  refine ⟨op, _, rfl, ?_⟩
  show (Eval.mapStop _ _ _).1 = _
  rw [mapStop_run, ends]
  rfl

/-- A load passes it on. -/
theorem load_escapes {path : String} {ns : ScopeId} (comes : Runner.Comes (fun r => r.load f path ns) r w t v) :
    Escapes s t (r.load f path ns w) := by
  have found {source : Except Fault Source} : anything.Follows r anything.Own (fun _ => ofExcept source)
      fun _ => True := follows_ofExcept fun _ _ => trivial
  refine after_get comes (R := Escapes s t) fun comes => ?_
  refine after_const found comes (R := Escapes s t) fun source w₁ comes => ?_
  exact after_const (follows_compileModule _ source) comes (R := Escapes s t) fun op w₂ comes =>
    runModule_escapes loop ends comes

/-- So does a load of a module that was absent. -/
theorem loadNew_escapes {path : String} (comes : Runner.Comes (fun r => r.loadNew f path) r w t v) :
    Escapes s t (r.loadNew f path w) := by
  refine after_const (follows_newScope fun _ => []) comes (R := Escapes s t) fun ns w₁ comes => ?_
  refine after_const (follows_updateModules _) comes (R := Escapes s t) fun _ w₂ comes => ?_
  have load : anything.FollowsIn r anything.Own (fun r => r.load f path ns) _ w₂ :=
    follows_load (lawful_of_true (fun _ => trivial) loop) (admitsModules_anything f) path ns w₂
      (World.carries_all (fun _ => trivial) w₂)
  obtain comes | ⟨outcome, w₃, -, comes⟩ := load.settle.comes_bind comes
  · obtain ⟨op, g, same, stops⟩ := load_escapes loop ends (load.comes_settle.mp comes)
    rcases run : r.load f path ns w₂ with ⟨stop | a, w₃⟩ <;> rw [run] at stops
    · cases stops
      refine ⟨op, g, same, ?_⟩
      rw [bind_run_ok (settle_unwind run)]
      rfl
    · exact nomatch stops
  · cases outcome <;> exact (not_comes_const _ comes).elim

/-- So does an import, whether it loads or not. -/
theorem fetchModule_escapes {path : String} (comes : Runner.Comes (fun r => r.fetchModule f path) r w t v) :
    Escapes s t (r.fetchModule f path w) := by
  refine after_get comes (R := Escapes s t) fun comes => ?_
  split at comes
  · exact (not_comes_const _ comes).elim
  · exact (not_comes_const _ comes).elim
  · exact (not_comes_const _ comes).elim
  · next absent =>
    rw [absent]
    exact loadNew_escapes loop ends comes

theorem importModule_escapes {path : String} (comes : Runner.Comes (fun r => r.importModule f path) r w t v) :
    Escapes s t (r.importModule f path w) := by
  have resolved {target : Except Fault String} : anything.Follows r anything.Own (fun _ => ofExcept target)
      fun _ => True := follows_ofExcept fun _ _ => trivial
  have lawful : anything.Lawful r := lawful_of_true (fun _ => trivial) loop
  exact after_const resolved comes (R := Escapes s t) fun target w₁ comes =>
    escapes_first (follows_fetchModule lawful (admitsModules_anything f) target) (fun _ _ => not_comes_const _) comes
      (fetchModule_escapes loop ends)

/-- And so does `use`. -/
theorem useModule_escapes {name path : String} (comes : Runner.Comes (fun r => r.useModule name path f) r w t v) :
    Escapes s t (r.useModule name path f w) :=
  escapes_first (follows_importModule (lawful_of_true (fun _ => trivial) loop) (admitsModules_anything f) path)
    (fun _ _ => not_comes_const _) comes (importModule_escapes loop ends)

end Modules

end Conduct

open Conduct

/-- Code that may come from anywhere. -/
def Provenance.anywhere : Provenance :=
  ⟨fun _ _ => True, fun _ _ => trivial, fun _ => trivial⟩

/-- Only boundaries absorb signals. -/
theorem Task.Absorbs.bounds {s : Signal} {outer inner : Task} (h : outer.Absorbs inner (.signal s)) :
    Task.Bounds s outer inner := by
  cases h with
  | signal boundary => exact boundary

namespace Evaluation

variable {s : Signal} {outer body inner e : Evaluation}

/-! ## The way of a signal -/

/-- The builtin does nothing but raise the signal. -/
theorem Raises.ends (h : e.Raises s) : e.EndsWith (.signal s) := by
  obtain ⟨fuel, task, w⟩ := e
  obtain ⟨left, mode, f, rfl⟩ := h
  obtain ⟨fuel, rfl⟩ := Nat.exists_eq_add_of_lt left
  rw [EndsWith, outcome, Nat.zero_add, Runner.run_ofFuel]
  cases s <;> rfl

/-- **A signal arrives** where no boundary keeps it, unless it is lost on its way. -/
theorem Leads.arrives (way : outer.Exposes s inner) (keeps : outer.Keeps .anywhere)
    (ends : inner.EndsWith (.signal s)) : outer.EndsWith (.signal s) ∨ outer.Loses s inner :=
  way.reaches keeps ends (Unwind.firm_signal s) fun _ _ boundless absorbs => boundless absorbs.bounds

/-! ## What the boundaries make of it -/

section Results

variable {r : Runner} {site : Site} {rule : Eval Unit} {w w' : World}

/-- What ends well needs no place. -/
theorem placed_ok (h : rule w = (.ok (), w')) :
    (rule.located site >>= fun _ => (return [] : Eval (List Value))) w = (.ok [], w') := by
  have here : rule.located site w = (.ok (), w') := by
    show rule.mapStop _ w = _
    rw [mapStop_run, h]
    rfl
  rw [bind_run_ok here]
  rfl

theorem valueless_ok (h : rule w = (.ok (), w')) :
    (rule >>= fun _ => (return [] : Eval (List Value))) w = (.ok [], w') := by
  rw [bind_run_ok h]
  rfl

/-- A rule that returns nothing brings up the same. -/
theorem comes_valueless {C : Conduct} {own : Unwind → Prop} {rule : Runner → Eval Unit} {Q : Unit → Prop}
    {t : Task} {v : World} (hx : C.FollowsIn r own rule Q w)
    (comes : Runner.Comes (fun r => rule r >>= fun _ => (return [] : Eval (List Value))) r w t v) :
    Runner.Comes rule r w t v :=
  hx.comes_of (fun outcome => (bind (m := Eval) (fun _ => outcome) (fun _ : Unit => return ([] : List Value)) w).1)
    comes

end Results

variable {r : Runner} {t : Task} {w v w' : World}

/-- A loop is broken off by a round that is left by `break`. -/
theorem perform_broken (loop : ∃ fuel, r.loop = (Runner.ofFuel fuel).loop) {whole : Task} (round : whole.Rounds t)
    (broken : r.run t v = (.error (.unwind (.signal .break)), w'))
    (comes : Runner.Comes (fun r => r.perform whole) r w t v) : r.perform whole w = (.ok [], w') := by
  have lawful : anything.Lawful r := lawful_of_true (fun _ => trivial) loop
  have any {rule : Runner → Eval Unit} (h : anything.Follows r anything.Own rule fun _ => True) :
      anything.FollowsIn r anything.Own rule (fun _ => True) w := h w (World.carries_all (fun _ => trivial) w)
  cases round with
  | @whileLoop condition body span f g callable args mode =>
    have rule : anything.FollowsIn r anything.Own (fun r => r.whileLoop condition body f) _ w :=
      any (follows_whileLoop lawful trivial (fun _ _ => trivial) fun _ _ _ => trivial)
    exact placed_ok (whileLoop_broken loop broken nofun (rule.comes_placed.mp comes))
  | @forLoop target iterable body otherwise span f g callable args mode part =>
    have rule : anything.FollowsIn r anything.Own (fun r => r.forLoop target iterable body otherwise f) _ w :=
      any (follows_forLoop lawful (fun x _ => admitsTarget_anything x) (fun x _ => admitsTarget_anything x)
        trivial trivial (fun _ _ => trivial) (fun _ _ _ _ => trivial) fun _ _ _ => trivial)
    exact placed_ok (forLoop_broken loop broken nofun part (rule.comes_placed.mp comes))
  | @each inputs args called mode f g callable =>
    have rule : anything.FollowsIn r anything.Own (fun r => r.each inputs f) _ w :=
      any (follows_each lawful (fun v _ => v.carries_all fun _ => trivial) (fun _ _ _ _ => trivial)
        fun _ _ _ _ => trivial)
    exact valueless_ok (each_broken loop broken nofun (comes_valueless rule comes))

/-- A loop is resumed by a round that is left by `continue`. -/
theorem perform_resumed (loop : ∃ fuel, r.loop = (Runner.ofFuel fuel).loop) {whole : Task} (round : whole.Rounds t)
    (resumed : r.run t v = (.error (.unwind (.signal .continue)), w')) :
    r.perform whole w = (r.answering t v (.ok [], w')).perform whole w := by
  have placed {site : Site} {x y : Eval Unit} (same : x = y) :
      (y.located site >>= fun _ => (return [] : Eval (List Value))) w =
        (x.located site >>= fun _ => (return [] : Eval (List Value))) w := by rw [same]
  cases round with
  | whileLoop => exact placed (whileLoop_resumed loop resumed nofun)
  | forLoop part => exact placed (forLoop_resumed loop resumed nofun part)
  | each =>
    exact congrArg (fun rule : Eval Unit => (rule >>= fun _ => (return [] : Eval (List Value))) w)
      (each_resumed resumed).symm

/-- What an evaluation that ends with an unwind comes to. -/
theorem EndsWith.outcome_eq {u : Unwind} (ends : e.EndsWith u) :
    (Runner.ofFuel e.fuel).run e.task e.world = (.error (.unwind u), e.outcome.2) := Prod.ext ends rfl

/-- **A boundary obeys the signal** that arrives at it. -/
theorem Runs.obeys (runs : outer.Runs body) (ends : body.EndsWith (.signal s)) : outer.Obeys s body := by
  have loop : ∃ fuel, (Runner.ofFuel body.fuel).loop = (Runner.ofFuel fuel).loop := ⟨_, rfl⟩
  have left := ends.outcome_eq
  have outcome := runs.outcome_eq
  refine ⟨?_, ?_, ?_, ?_⟩
  · rintro rfl round
    exact outcome.trans (perform_broken loop round left runs.2)
  · rintro rfl round
    exact outcome.trans (perform_resumed loop round left)
  · rintro rfl c args f task
    obtain ⟨fuel, _, w⟩ := outer
    subst task
    have rule : anything.FollowsIn _ anything.Own (fun r => r.callClosure c args .command f) _ w :=
      follows_callClosure (lawful_of_true (fun _ => trivial) loop) (fun v _ => v.carries_all fun _ => trivial)
        (fun _ => trivial) (fun _ _ => trivial) w (World.carries_all (fun _ => trivial) w)
    exact outcome.trans (valueless_ok (callClosure_completed loop left (comes_valueless rule runs.2)))
  · intro name path span f task
    obtain ⟨fuel, _, w⟩ := outer
    subst task
    have rule : anything.FollowsIn _ anything.Own _ _ w :=
      follows_useModule (f := f) (lawful_of_true (fun _ => trivial) loop) (admitsModules_anything f) name path w
        (World.carries_all (fun _ => trivial) w)
    obtain ⟨op, g, same, escapes⟩ := useModule_escapes loop ends (rule.comes_placed.mp runs.2)
    exact ⟨op, g, same, (congrArg Prod.fst outcome).trans (placed_firm escapes (Unwind.firm_exception _ _))⟩

/-- What leads there over links of any kind is around it. -/
theorem Leads.encloses {link : Task → Task → Prop} (way : outer.Leads link inner) : outer.Encloses inner := by
  induction way with
  | here => exact .here
  | step runs _ _ ih => exact .step runs trivial ih

/-- Either a boundary lies above, and one is the nearest, or none. -/
theorem Leads.exposed_or_bounded (way : outer.Encloses inner) (s : Signal) : outer.Exposes s inner ∨
    ∃ above below, outer.Encloses above ∧ above.Runs below ∧ Task.Bounds s above.task below.task ∧
      below.Exposes s inner := by
  induction way with
  | here => exact .inl .here
  | @step outer next inner runs _ rest ih =>
    obtain exposed | ⟨above, below, way, bounded⟩ := ih
    · by_cases boundary : Task.Bounds s outer.task next.task
      · exact .inr ⟨outer, next, .here, runs, boundary, exposed⟩
      · exact .inl (.step runs boundary exposed)
    · exact .inr ⟨above, below, .step runs trivial way, bounded⟩

/-! ## Chunks and commands -/

section Commands

variable {fuel : Nat} {f : Frame} {w : World} {span : Span}

/-- When the operations before it have run, the next one of a chunk runs. -/
theorem runs_next {before rest : List Operation} {op : Operation} {w' : World}
    (ran : (Runner.ofFuel fuel).chunk f before w = (.ok (), w')) :
    Runs ⟨fuel + 1, .operation (.chunk (before ++ op :: rest) span) f, w⟩ ⟨fuel, .operation op f, w'⟩ := by
  have lawful : anything.Lawful (.ofFuel fuel) := lawful_of_true (fun _ => trivial) ⟨_, rfl⟩
  have rule : anything.FollowsIn (.ofFuel fuel) anything.Own (fun r => r.chunk f (before ++ op :: rest)) _ w :=
    follows_chunk lawful (fun _ _ => trivial) w (World.carries_all (fun _ => trivial) w)
  refine ⟨rfl, rule.comes_placed.mpr ?_⟩
  clear rule
  induction before generalizing w with
  | nil =>
    cases ran
    exact comes_first (comes_operation.mpr ⟨rfl, rfl⟩)
  | cons first before ih =>
    have rule : anything.FollowsIn (.ofFuel fuel) anything.Own (fun r => r.operation first f) _ w :=
      anything_operation ⟨_, rfl⟩ first f w
    rw [Runner.chunk, bind_run] at ran
    rcases run : (Runner.ofFuel fuel).operation first f w with ⟨stop | u, w₁⟩ <;> rw [run] at ran
    · exact nomatch ran
    · exact rule.comes_second run (ih ran)

/-- The first operation of a chunk runs in its world. -/
theorem runs_first {op : Operation} {rest : List Operation} :
    Runs ⟨fuel + 1, .operation (.chunk (op :: rest) span) f, w⟩ ⟨fuel, .operation op f, w⟩ :=
  runs_next (rfl : (Runner.ofFuel fuel).chunk f [] w = _)

section Calls

variable {callable : Callable} {w' : World}

/-- A command whose function has been found runs the call. -/
theorem runs_called {head : CallHead} (found : (match head with
      | .name name => findCommand f name
      | .value e => (Runner.ofFuel fuel).callable e f) w = (.ok callable, w')) :
    Runs ⟨fuel + 1, .operation (.call head [] span) f, w⟩ ⟨fuel, .call callable [] .command f, w'⟩ := by
  have lawful : anything.Lawful (.ofFuel fuel) := lawful_of_true (fun _ => trivial) ⟨_, rfl⟩
  have carries (v : World) := World.carries_all (P := fun _ => True) (fun _ => trivial) v
  have rule : anything.FollowsIn (.ofFuel fuel) anything.Own (fun r => r.callCommand head [] f) _ w :=
    follows_callCommand lawful (fun _ _ => trivial) (fun _ _ => trivial) (fun _ _ _ _ => trivial) w (carries w)
  have values : Runner.Comes (fun r => r.exprs f [] >>= fun values => r.call callable values .command f)
      (.ofFuel fuel) w' (.call callable [] .command f) w' := by
    have none : anything.FollowsIn (.ofFuel fuel) anything.Own (fun _ => (return [] : Eval (List Value)))
        (fun _ => True) w' := follows_pure trivial w' (carries w')
    exact none.comes_second rfl (comes_call.mpr ⟨rfl, rfl⟩)
  refine ⟨rfl, rule.comes_placed.mpr ?_⟩
  cases head with
  | name name =>
    have looked : anything.FollowsIn (.ofFuel fuel) anything.Own (fun _ => findCommand f name) _ w :=
      follows_findCommand name w (carries w)
    exact looked.comes_second found values
  | value e =>
    have made : anything.FollowsIn (.ofFuel fuel) anything.Own (fun r => r.callable e f) _ w :=
      follows_callable lawful trivial w (carries w)
    exact made.comes_second found values

/-- A command without arguments runs the call at once. -/
theorem runs_command {name : String} (found : findCommand f name w = (.ok callable, w)) :
    Runs ⟨fuel + 1, .operation (.call (.name name) [] span) f, w⟩ ⟨fuel, .call callable [] .command f, w⟩ :=
  runs_called found

/-- When its arguments are bound, the body of a closure runs. -/
theorem runs_body {c : Closure} {args : List Value} {mode : CallMode}
    (bound : bindArguments ⟨w.store.scopes.size⟩ c.lambda args
      { w with store := (w.store.newScope []).2 } = (.ok (), w')) :
    Runs ⟨fuel + 1, .call (.closure c) args mode f, w⟩
      ⟨fuel, .operation c.lambda.body (f.inside c mode ⟨w.store.scopes.size⟩), w'⟩ := by
  have carries (v : World) : v.Carries anything.good := World.carries_all (fun _ => trivial) v
  have scope : anything.FollowsIn (.ofFuel fuel) anything.Own (fun _ => updateStore fun s => s.newScope []) _ w :=
    follows_newScope (fun _ => []) w (carries w)
  have arguments : anything.FollowsIn (.ofFuel fuel) anything.Own
      (fun _ => bindArguments ⟨w.store.scopes.size⟩ c.lambda args) _ { w with store := (w.store.newScope []).2 } :=
    follows_bindArguments _ c.lambda (fun v _ => v.carries_all fun _ => trivial) _ (carries _)
  have body : Runner.Comes (fun r => r.runBody c mode (f.inside c mode ⟨w.store.scopes.size⟩)) (.ofFuel fuel)
      w' (.operation c.lambda.body (f.inside c mode ⟨w.store.scopes.size⟩)) w' := by
    simp only [Runner.runBody]
    -- a call of a function, or as a command, looks at how the body ended
    cases c.isFunction || mode == .command with
    | true =>
      exact comes_first ((anything_operation ⟨_, rfl⟩ _ _ w').comes_settle.mpr (comes_operation.mpr ⟨rfl, rfl⟩))
    | false => exact comes_operation.mpr ⟨rfl, rfl⟩
  exact ⟨rfl, comes_first (scope.comes_second rfl (arguments.comes_second bound body))⟩

/-- When the condition of a `while` holds at first, its body is called. -/
theorem runs_round {condition : Expr} {body : Lambda}
    (holds : (Runner.ofFuel (fuel + 1)).holds condition (f.labelled "while cond")
      (close (f.labelled "while") body false w).2 = (.ok true, w'))
    (made : (close (f.labelled "while") body false w).1 = .ok callable) :
    Runs ⟨fuel + 2, .operation (.whileLoop condition body span) f, w⟩
      ⟨fuel + 1, .call callable [] .block (f.labelled "while"), w'⟩ := by
  have carries (v : World) : v.Carries anything.good := World.carries_all (fun _ => trivial) v
  have lawful : anything.Lawful (.ofFuel (fuel + 1)) := lawful_of_true (fun _ => trivial) ⟨_, rfl⟩
  have rule : anything.FollowsIn (.ofFuel (fuel + 1)) anything.Own (fun r => r.whileLoop condition body f) _ w :=
    follows_whileLoop lawful trivial (fun _ _ => trivial) (fun _ _ _ => trivial) w (carries w)
  have closes : anything.FollowsIn (.ofFuel (fuel + 1)) anything.Own
      (fun _ => close (f.labelled "while") body false) _ w := follows_body anything body _ w (carries w)
  have asks : anything.FollowsIn (.ofFuel (fuel + 1)) anything.Own
      (fun r => r.holds condition (f.labelled "while cond")) (fun _ => True)
      (close (f.labelled "while") body false w).2 := follows_holds lawful trivial _ (carries _)
  have calls : anything.FollowsIn (.ofFuel (fuel + 1)) (fun _ => True)
      (fun r => r.call callable [] .block (f.labelled "while")) _ w' := follows_call lawful trivial w' (carries w')
  have unrolled (r : Runner) (same : r.loop = (Runner.ofFuel (fuel + 1)).loop) (step : Eval Bool) :
      r.loop step = step >>= fun goesOn => if goesOn then (Runner.ofFuel fuel).loop step else pure () := by
    rw [same]
    rfl
  refine ⟨rfl, rule.comes_placed.mpr (closes.comes_second (Prod.ext made rfl) ?_)⟩
  refine (comes_congr fun r same => unrolled r same _).mpr (comes_first (asks.comes_second holds ?_))
  exact comes_first (calls.comes_settle.mpr (comes_call.mpr ⟨rfl, rfl⟩))

end Calls

end Commands

end Evaluation

namespace Session

open Evaluation

variable {s : Session} {fuel : Nat} {op : Operation} {source : Source} {ports : Ports} {sig : Signal} {e : Evaluation}

/-- How a unit ends is how its operation does. -/
theorem evaluate_eq (compiled : s.compile source = .ok op) :
    (s.evaluate fuel source ports).1 =
      match (s.evaluation fuel op source ports).outcome.1 with
      | .ok _ => .done
      | .error (.unwind u) => .failed (.exception
          (escapingException ((s.evaluation fuel op source ports).task.frame.site op.span) u))
      | .error (.exit code) => .exited code
      | .error .blocked | .error .outOfFuel => .cutOff := by
  rw [evaluate_run, compiled, outcome, evaluation, run_operation]
  simp only [execute, executeBy]
  rcases (Runner.ofFuel fuel).operation op (s.frame source ports (s.world.store.newScope []).1) _ with
    ⟨(_ | _ | _ | _) | _, _⟩ <;> rfl

/-- A unit whose operation ends with a signal fails. -/
theorem evaluate_signal (compiled : s.compile source = .ok op)
    (ends : (s.evaluation fuel op source ports).EndsWith (.signal sig)) :
    (s.evaluate fuel source ports).1 = .failed (.exception
      ⟨sig.escaped, some ((s.evaluation fuel op source ports).task.frame.site op.span)⟩) := by
  rw [evaluate_eq compiled, ends]
  rfl

/-- **Signals reach the nearest boundary**, in every run of a unit.  On its way a signal stays what it is.  The loop or
the call at the nearest boundary obeys it; the import of a module, or the unit, fails with the error for a signal outside
of such a boundary.  A signal is lost only where something overrides it, or where everything ends. -/
theorem signal_reaches_boundary (compiled : s.compile source = .ok op)
    (inside : (s.evaluation fuel op source ports).Encloses e) (raised : e.Raises sig) :
    (∀ mid, (s.evaluation fuel op source ports).Encloses mid → mid.Exposes sig e →
      mid.EndsWith (.signal sig) ∨ mid.Loses sig e) ∧
    (∀ outer body, (s.evaluation fuel op source ports).Encloses outer → outer.Runs body →
      Task.Bounds sig outer.task body.task → body.Exposes sig e → outer.Obeys sig body ∨ body.Loses sig e) ∧
    ((s.evaluation fuel op source ports).Exposes sig e →
      (s.evaluate fuel source ports).1 = .failed (.exception
        ⟨sig.escaped, some ((s.evaluation fuel op source ports).task.frame.site op.span)⟩) ∨
      (s.evaluation fuel op source ports).Loses sig e) ∧
    ((s.evaluation fuel op source ports).Exposes sig e ∨
      ∃ outer body, (s.evaluation fuel op source ports).Encloses outer ∧ outer.Runs body ∧
        Task.Bounds sig outer.task body.task ∧ body.Exposes sig e) := by
  have unit : (s.evaluation fuel op source ports).Keeps .anywhere :=
    ⟨trivial, World.carries_all (fun _ => trivial) _⟩
  have arrives (mid : Evaluation) (within : (s.evaluation fuel op source ports).Encloses mid)
      (way : mid.Exposes sig e) : mid.EndsWith (.signal sig) ∨ mid.Loses sig e :=
    way.arrives (unit.leads within) raised.ends
  refine ⟨arrives, fun outer body within runs _ way => ?_, fun way => ?_, inside.exposed_or_bounded sig⟩
  · exact (way.arrives ((unit.leads within).runs runs) raised.ends).imp_left runs.obeys
  · exact (arrives _ .here way).imp_left (evaluate_signal compiled)

/-- A unit that is `break` alone fails, since nothing in it is a loop.  In `while a { break }` the loop obeys, unless the
signal is lost, and in `{ return }` the call does. -/
theorem signal_reaches_boundary_outside :
    let s := Session.start ⟨none, []⟩ ⟨[]⟩ default "1"
    let alone := Source.interactive "break"
    let inLoop := Source.interactive "while a \x7b break \x7d"
    let inCall := Source.interactive "\x7b return \x7d"
    (∃ op e, s.compile alone = .ok op ∧ (s.evaluation 3 op alone .standard).Encloses e ∧ e.Raises .break ∧
      ((s.evaluate 3 alone .standard).1 = .failed (.exception
        ⟨Signal.break.escaped, some ((s.evaluation 3 op alone .standard).task.frame.site op.span)⟩) ∨
      (s.evaluation 3 op alone .standard).Loses .break e)) ∧
    (∃ op, ∃ e loop round : Evaluation, s.compile inLoop = .ok op ∧
      (s.evaluation 7 op inLoop .standard).Encloses e ∧ e.Raises .break ∧ loop.Runs round ∧
      Task.Bounds .break loop.task round.task ∧ (loop.Obeys .break round ∨ round.Loses .break e)) ∧
    ∃ op, ∃ e call body : Evaluation, s.compile inCall = .ok op ∧
      (s.evaluation 7 op inCall .standard).Encloses e ∧ e.Raises .return ∧ call.Runs body ∧
      Task.Bounds .return call.task body.task ∧ (call.Obeys .return body ∨ body.Loses .return e) := by
  intro s alone inLoop inCall
  have unbounded {sig : Signal} {op : Operation} {f : Frame} {t : Task}
      (h : (∃ ops span, op = .chunk ops span) ∨ ∃ head args span, op = .call head args span) :
      ¬Task.Bounds sig (.operation op f) t := by
    obtain ⟨_, _, rfl⟩ | ⟨_, _, _, rfl⟩ := h <;>
    · rintro (⟨_, round⟩ | _ | _)
      cases round
  have inBlock {c : Closure} {args : List Value} {mode : CallMode} {f g : Frame} {op : Operation} :
      ¬Task.Bounds .break (.call (.closure c) args mode f) (.operation op g) := by
    rintro (⟨_, round⟩ | _ | _)
    cases round
  have raises (sig : Signal) (fuel : Nat) (f : Frame) (w : World) :
      Raises ⟨fuel + 1, .call (.builtin sig.builtin) [] .command f, w⟩ sig := ⟨Nat.succ_pos _, _, _, rfl⟩
  let w : World := { s.world with store := (s.world.store.newScope []).2 }
  refine ⟨?_, ?_, ?_⟩
  · have compiled : s.compile alone = .ok (.chunk [.call (.name "break") [] ⟨0, 5⟩] ⟨0, 5⟩) := by cbv
    let f := s.frame alone .standard (s.world.store.newScope []).1
    have found : findCommand f "break" w = (.ok (.builtin .break), w) := by cbv
    have raised := raises .break 0 f w
    have inside : (s.evaluation 3 (.chunk [.call (.name "break") [] ⟨0, 5⟩] ⟨0, 5⟩) alone .standard).Encloses
        ⟨1, .call (.builtin Signal.break.builtin) [] .command f, w⟩ :=
      .step runs_first trivial (.step (runs_command found) trivial .here)
    have way : (s.evaluation 3 (.chunk [.call (.name "break") [] ⟨0, 5⟩] ⟨0, 5⟩) alone .standard).Exposes .break
        ⟨1, .call (.builtin Signal.break.builtin) [] .command f, w⟩ :=
      .step runs_first (unbounded (.inl ⟨_, _, rfl⟩)) (.step (runs_command found)
        (unbounded (.inr ⟨_, _, _, rfl⟩)) .here)
    exact ⟨_, _, compiled, inside, raised, (signal_reaches_boundary compiled inside raised).2.2.1 way⟩
  · let block : Lambda := ⟨[], none, false, .chunk [.call (.name "break") [] ⟨10, 15⟩] ⟨9, 16⟩, ⟨8, 17⟩⟩
    let op : Operation := .chunk [.whileLoop (.literal "a" ⟨6, 7⟩) block ⟨0, 17⟩] ⟨0, 17⟩
    have compiled : s.compile inLoop = .ok op := by cbv
    let f := s.frame inLoop .standard (s.world.store.newScope []).1
    let c : Closure := ⟨w.store.nextIdentity, block, ⟨w.store.scopes.size⟩, inLoop, false⟩
    let made := (close (f.labelled "while") block false w).2
    let bound := (bindArguments ⟨made.store.scopes.size⟩ block []
      { made with store := (made.store.newScope []).2 }).2
    let g := (f.labelled "while").inside c .block ⟨made.store.scopes.size⟩
    have found : findCommand g "break" bound = (.ok (.builtin .break), bound) := by cbv
    have raised := raises .break 1 g bound
    have way : Exposes .break ⟨5, .call (.closure c) [] .block (f.labelled "while"), made⟩
        ⟨2, .call (.builtin Signal.break.builtin) [] .command g, bound⟩ :=
      .step (runs_body rfl) inBlock (.step runs_first (unbounded (.inl ⟨_, _, rfl⟩))
        (.step (runs_command found) (unbounded (.inr ⟨_, _, _, rfl⟩)) .here))
    have round : Runs ⟨6, .operation (.whileLoop (.literal "a" ⟨6, 7⟩) block ⟨0, 17⟩) f, w⟩
        ⟨5, .call (.closure c) [] .block (f.labelled "while"), made⟩ := runs_round rfl rfl
    have inside : (s.evaluation 7 op inLoop .standard).Encloses _ :=
      .step runs_first trivial (.step round trivial way.encloses)
    exact ⟨op, _, _, _, compiled, inside, raised, round, .round (by decide) .whileLoop,
      (signal_reaches_boundary compiled inside raised).2.1 _ _ (.step runs_first trivial .here) round
        (.round (by decide) .whileLoop) way⟩
  · let block : Lambda := ⟨[], none, false, .chunk [.call (.name "return") [] ⟨2, 8⟩] ⟨1, 9⟩, ⟨0, 10⟩⟩
    let op : Operation := .chunk [.call (.value (.lambda block)) [] ⟨0, 10⟩] ⟨0, 10⟩
    have compiled : s.compile inCall = .ok op := by cbv
    let f := s.frame inCall .standard (s.world.store.newScope []).1
    let c : Closure := ⟨w.store.nextIdentity, block, ⟨w.store.scopes.size⟩, inCall, false⟩
    let made := (close f block false w).2
    let bound := (bindArguments ⟨made.store.scopes.size⟩ block []
      { made with store := (made.store.newScope []).2 }).2
    let g := f.inside c .command ⟨made.store.scopes.size⟩
    have found : findCommand g "return" bound = (.ok (.builtin .return), bound) := by cbv
    have raised := raises .return 1 g bound
    have way : Exposes .return ⟨4, .operation block.body g, bound⟩
        ⟨2, .call (.builtin Signal.return.builtin) [] .command g, bound⟩ :=
      .step runs_first (unbounded (.inl ⟨_, _, rfl⟩))
        (.step (runs_command found) (unbounded (.inr ⟨_, _, _, rfl⟩)) .here)
    have called : Runs ⟨5, .call (.closure c) [] .command f, made⟩ ⟨4, .operation block.body g, bound⟩ :=
      runs_body rfl
    have above : (s.evaluation 7 op inCall .standard).Encloses ⟨5, .call (.closure c) [] .command f, made⟩ :=
      .step runs_first trivial (.step (runs_called rfl) trivial .here)
    have inside : (s.evaluation 7 op inCall .standard).Encloses _ :=
      .step runs_first trivial (.step (runs_called rfl) trivial (.step called trivial way.encloses))
    exact ⟨op, _, _, _, compiled, inside, raised, called, .function,
      (signal_reaches_boundary compiled inside raised).2.1 _ _ above called .function way⟩

end Session

end ValueShell
