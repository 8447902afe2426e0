/-
  What the bodies of `if` and `for` see.

  The body of a special form is a closure, and sees the variables that there are when it is made.  An `if` makes each
  body after the condition before it, and a `for` makes its body after the iterable.  So what the HEAD of a body, its
  condition or its iterable, has declared in the local scope of the frame, the body finds (`body_sees_head`).  A
  `while` makes its body before its condition is evaluated for the first time, and there the body does not find it
  (`while_body_misses_condition`), although it compiles.

  The proof is in two parts.  Which bodies a form calls, and in which world each is made, is read off its rule
  (`Body`), by induction on the branches and on the elements.  And what a closure has captured stays as it is, because
  no code is at home in a scope that was captured (`Closure.Sees`).
-/
import ValueShell.Proofs.DefinedFunctions
import ValueShell.Proofs.FailurePositions
import ValueShell.Proofs.TryOutcomes

namespace ValueShell

open Eval Conduct

/-! ## What a closure has captured -/

/-- **The closure sees what the scope has bound** in the world `u`; so it is in the world `v`. -/
structure Closure.Sees (k : Closure) (scope : ScopeId) (u v : World) : Prop where
  known : k.captured.index < v.store.scopes.size
  finds : ∀ name c, u.store.find? scope name = some c → v.store.find? k.captured name = some c

namespace Closure.Sees

variable {k : Closure} {scope : ScopeId} {f : Frame} {u v v' : World} {name : String} {c : CellId}

theorem made {lambda : Lambda} {isFunction : Bool} (order : u.store.InOrder f.localScope)
    (closes : close f lambda isFunction u = (.ok (.closure k), v)) : k.Sees f.localScope u v := by
  rw [close_run] at closes
  obtain ⟨same, rfl⟩ := Prod.mk.inj closes
  cases same
  exact ⟨by rw [Store.overlay]; exact Nat.lt_of_lt_of_eq (Nat.lt_succ_self _) (Store.size_newScope ..).symm,
    fun name c found => Store.find?_overlay order.sorted found⟩

/-- Code runs; it is not at home in the scope that was captured. -/
theorem later {e : Ending} {home : Option ScopeId} {loading : List String} (h : k.Sees scope u v)
    (run : Evolves e home loading v v') (away : home ≠ some k.captured) : k.Sees scope u v' := by
  refine ⟨Nat.lt_of_lt_of_le h.known run.grows.scopes, fun name c found => ?_⟩
  exact (run.grows.find?_eq_of_ne h.known away name).trans (h.finds name c found)

/-- What code in a call of the closure finds. -/
theorem findPlain? (h : k.Sees scope u v) (call : f.upScope = k.captured)
    (found : u.store.find? scope name = some c) :
    f.findPlain? v.store name = (v.store.find? f.localScope name).or (some c) := by
  rw [Frame.findPlain?, call, h.finds name c found]
  cases v.store.find? f.localScope name <;> rfl

end Closure.Sees

namespace Evaluation

/-- **The body that is called finds the variable**, at every moment in its own code at which it has not bound the name
itself. -/
def BodyFinds (inner : Evaluation) (name : String) (c : CellId) : Prop :=
  ∃ k g, inner.task = .call (.closure k) [] .block g ∧
    let scope : ScopeId := ⟨inner.world.store.scopes.size⟩
    ∀ ending loading v,
      Evolves ending (some scope) loading { inner.world with store := (inner.world.store.newScope []).2 } v →
        (g.inside k .block scope).findPlain? v.store name = (v.store.find? scope name).or (some c)

theorem BodyFinds.of_sees {inner : Evaluation} {k : Closure} {g : Frame} {scope : ScopeId} {u : World} {name : String}
    {c : CellId} (task : inner.task = .call (.closure k) [] .block g) (sees : k.Sees scope u inner.world)
    (found : u.store.find? scope name = some c) : inner.BodyFinds name c := by
  refine ⟨k, g, task, fun ending loading v run => ?_⟩
  have enters : Evolves .settled none [] inner.world { inner.world with store := (inner.world.store.newScope []).2 } :=
    .change (.newScope [] nofun)
  have entered := sees.later enters nofun
  refine (entered.later run fun same => ?_).findPlain? rfl found
  -- the scope of the call is fresh, and the captured one is not
  exact absurd sees.known (Nat.not_lt.mpr (Nat.le_of_eq (congrArg ScopeId.index (Option.some.inj same))))

/-! ## The bodies that a form calls -/

/-- The evaluation of a condition. -/
def condition (fuel : Nat) (f : Frame) (b : Branch) (v : World) : Evaluation :=
  ⟨fuel, .expr b.condition (f.labelled "if cond"), v⟩

/-- **The bodies that an `if` or a `for` calls**, from the world in which it begins; and with each its head, the
condition or the iterable that was evaluated before it. -/
inductive Body (fuel : Nat) (f : Frame) : Operation → World → Evaluation → Evaluation → Prop
  | branch {b : Branch} {after : List Branch} {otherwise : Option Lambda} {span : Span} {w : World} {vs : List Value}
      (ended : (condition fuel f b w).outcome.1 = .ok vs) (holds : vs.all Value.truthy = true) :
      Body fuel f (.conditional (b :: after) otherwise span) w (condition fuel f b w)
        (part fuel f "if body" b.body (condition fuel f b w).outcome.2)
  | otherwise {b : Branch} {l : Lambda} {span : Span} {w : World} {vs : List Value}
      (ended : (condition fuel f b w).outcome.1 = .ok vs) (fails : vs.all Value.truthy = false) :
      Body fuel f (.conditional [b] (some l) span) w (condition fuel f b w)
        (part fuel f "if else" l (condition fuel f b w).outcome.2)
  /-- the first condition does not hold, and the others begin where it ended -/
  | later {b : Branch} {after : List Branch} {otherwise : Option Lambda} {span : Span} {w : World} {vs : List Value}
      {head inner : Evaluation} (ended : (condition fuel f b w).outcome.1 = .ok vs)
      (fails : vs.all Value.truthy = false)
      (rest : Body fuel f (.conditional after otherwise span) (condition fuel f b w).outcome.2 head inner) :
      Body fuel f (.conditional (b :: after) otherwise span) w head inner
  /-- a round of a loop: the body was made right after the iterable, and then code has run in the frame -/
  | round {target : Targets} {iterable : Expr} {body : Lambda} {otherwise : Option Lambda} {span : Span}
      {w v u now : World} {item : Resolved} {x : Value} {k : Callable}
      (resolved : (Runner.ofFuel fuel).onlyTarget f .onlyOneVariable target w = (.ok item, v))
      (ended : (mk fuel (.expr iterable f) v).outcome.1 = .ok [x])
      (made : close (f.labelled "for") body false (mk fuel (.expr iterable f) v).outcome.2 = (.ok k, u))
      (run : Evolves .settled (some f.localScope) f.loading u now) :
      Body fuel f (.forLoop target iterable body otherwise span) w ⟨fuel, .expr iterable f, v⟩
        ⟨fuel, .call k [] .block (f.labelled "for"), now⟩
  /-- there are no elements -/
  | nothing {target : Targets} {iterable : Expr} {body l : Lambda} {span : Span} {w v u : World} {item : Resolved}
      {x : Value} {k : Callable}
      (resolved : (Runner.ofFuel fuel).onlyTarget f .onlyOneVariable target w = (.ok item, v))
      (ended : (mk fuel (.expr iterable f) v).outcome.1 = .ok [x])
      (made : close (f.labelled "for") body false (mk fuel (.expr iterable f) v).outcome.2 = (.ok k, u)) :
      Body fuel f (.forLoop target iterable body (some l) span) w ⟨fuel, .expr iterable f, v⟩
        (part fuel f "for else" l u)

/-- A rule comes to the head of the body, in a world that its own code has led to. -/
structure Heads (fuel : Nat) (f : Frame) (rule : Runner → Eval Unit) (op : Operation) (w : World)
    (head inner : Evaluation) : Prop where
  same : head.fuel = fuel
  comes : Runner.Comes rule (.ofFuel fuel) w head.task head.world
  before : Evolves .settled (some f.localScope) f.loading w head.world
  body : Body fuel f op w head inner

section Heads

variable {fuel : Nat} {f g : Frame} {e : Expr} {t : Task} {v w w' : World} {span : Span}

theorem holds_ok {b : Bool} (run : (Runner.ofFuel fuel).holds e g w = (.ok b, w')) :
    ∃ vs, (mk fuel (.expr e g) w).outcome = (.ok vs, w') ∧ vs.all Value.truthy = b := by
  rw [Runner.holds, bind_run] at run
  rcases ran : (Runner.ofFuel fuel).expr e g w with ⟨stop | vs, w₁⟩ <;> rw [ran] at run
  · exact nomatch run
  · cases run
    exact ⟨vs, ran, rfl⟩

theorem holds_of_all {vs : List Value} (ended : (mk fuel (.expr e g) w).outcome.1 = .ok vs)
    (all : vs.all Value.truthy = true) :
    (Runner.ofFuel fuel).holds e g w = (.ok true, (mk fuel (.expr e g) w).outcome.2) := by
  have run : (Runner.ofFuel fuel).expr e g w = (.ok vs, (mk fuel (.expr e g) w).outcome.2) := Prod.ext ended rfl
  rw [Runner.holds, bind_run_ok run, all]
  rfl

theorem single_ok {what : String} {x : Value} (run : (Runner.ofFuel fuel).single what e g w = (.ok x, w')) :
    (mk fuel (.expr e g) w).outcome = (.ok [x], w') := by
  rw [Runner.single, bind_run] at run
  rcases ran : (Runner.ofFuel fuel).expr e g w with ⟨stop | vs, w₁⟩ <;> rw [ran] at run
  · cases run
  · dsimp only at run
    split at run
    · cases run
      exact ran
    · cases run

/-- The head is evaluated in the frame, so code has run in the frame when it ends. -/
theorem evolves_of_outcome {o : Except Stop (List Value)} (home : g.localScope = f.localScope)
    (loading : g.loading = f.loading) (ran : (mk fuel (.expr e g) w).outcome = (o, w'))
    (settled : Ending.of o = .settled) : Evolves .settled (some f.localScope) f.loading w w' := by
  have evolves := (Runner.ofFuel_contained fuel).expr e g w
  change Evolves (.of (mk fuel (.expr e g) w).outcome.1) _ _ w (mk fuel (.expr e g) w).outcome.2 at evolves
  rwa [ran, settled, home, loading] at evolves

theorem lawful_expressions (fuel : Nat) : expressions.Lawful (.ofFuel fuel) :=
  lawful_of_true (fun _ => trivial) ⟨fuel, rfl⟩

/-- A call is no expression, so a rule comes to it after its expressions. -/
theorem comes_past {α β : Type} {own : Unwind → Prop} {rule : Runner → Eval α} {next : α → Runner → Eval β}
    {Q : α → Prop} (call : ∀ e g, t ≠ .expr e g)
    (first : expressions.FollowsIn (.ofFuel fuel) own rule Q w)
    (comes : Runner.Comes (fun r => rule r >>= fun a => next a r) (.ofFuel fuel) w t v) :
    ∃ a w', rule (.ofFuel fuel) w = (.ok a, w') ∧ Runner.Comes (next a) (.ofFuel fuel) w' t v := by
  refine (first.comes_bind comes).resolve_left fun here => ?_
  obtain ⟨e, g, same⟩ := (first.admitted t v here).1
  exact call e g same

/-- **The bodies of an `if`**, by induction on its branches. -/
theorem heads_conditional {otherwise : Option Lambda} {branches : List Branch} (some' : branches ≠ [])
    (call : ∀ e g, t ≠ .expr e g)
    (comes : Runner.Comes (fun r => r.conditional otherwise f branches) (.ofFuel fuel) w t v) :
    ∃ head, Heads fuel f (fun r => r.conditional otherwise f branches) (.conditional branches otherwise span) w head
      ⟨fuel, t, v⟩ := by
  induction branches generalizing w with
  | nil => exact absurd rfl some'
  | cons b rest ih =>
    have tested : expressions.FollowsIn (.ofFuel fuel) expressions.Own
        (fun r => r.holds b.condition (f.labelled "if cond")) (fun _ => True) w :=
      follows_holds (lawful_expressions fuel) ⟨_, _, rfl⟩ w (World.carries_all (fun _ => trivial) w)
    obtain ⟨holds, u, run, comes⟩ := comes_past call tested comes
    obtain ⟨vs, ended, same⟩ := holds_ok run
    have left : (condition fuel f b w).outcome.2 = u := congrArg Prod.snd ended
    have evaluates : Runner.Comes (fun r => r.conditional otherwise f (b :: rest)) (.ofFuel fuel) w
        (condition fuel f b w).task (condition fuel f b w).world :=
      comes_first (comes_first (comes_expr.mpr ⟨rfl, rfl⟩))
    cases holds with
    | true =>
      obtain ⟨rfl, rfl⟩ := (comes_part ..).mp comes
      refine ⟨_, rfl, evaluates, .refl w, ?_⟩
      rw [← left]
      exact .branch (congrArg Prod.fst ended) same
    | false =>
      cases rest with
      | nil =>
        obtain ⟨l, rfl, rfl, rfl⟩ := comes_optional.mp comes
        refine ⟨_, rfl, evaluates, .refl w, ?_⟩
        rw [← left]
        exact .otherwise (congrArg Prod.fst ended) same
      | cons next rest =>
        obtain ⟨head, heads⟩ := ih (List.cons_ne_nil _ _) comes
        exact ⟨head, heads.same, tested.comes_second run heads.comes,
          (evolves_of_outcome rfl rfl ended rfl).trans heads.before,
          .later (congrArg Prod.fst ended) same (left.symm ▸ heads.body)⟩

/-- What the rounds of a loop come to, one of them comes to after code has run. -/
theorem comes_forEach {α : Type} {items : List α} {step : α → Runner → Eval Bool} {home : Option ScopeId}
    {loading : List String} (follows : ∀ a, anything.Follows (.ofFuel fuel) anything.Own (step a) fun _ => True)
    (stays : ∀ a, Stays home loading (step a (.ofFuel fuel)))
    (comes : Runner.Comes (fun r => forEach (fun a => step a r) items) (.ofFuel fuel) w t v) :
    ∃ a u, Evolves .settled home loading w u ∧ Runner.Comes (step a) (.ofFuel fuel) u t v := by
  induction items generalizing w with
  | nil => exact (not_comes_const _ comes).elim
  | cons item rest ih =>
    obtain comes | ⟨goesOn, u, run, comes⟩ :=
      (follows item w (World.carries_all (fun _ => trivial) w)).comes_bind comes
    · exact ⟨item, w, .refl w, comes⟩
    · cases goesOn with
      | false => exact (not_comes_const _ comes).elim
      | true =>
        obtain ⟨a, u', later, comes⟩ := ih comes
        have first := stays item w
        rw [run] at first
        exact ⟨a, u', first.trans later, comes⟩

/-- **The bodies of a `for`.** -/
theorem heads_forLoop {target : Targets} {body : Lambda} {otherwise : Option Lambda} (call : ∀ e g, t ≠ .expr e g)
    (comes : Runner.Comes (fun r => r.forLoop target e body otherwise f) (.ofFuel fuel) w t v) :
    ∃ head, Heads fuel f (fun r => r.forLoop target e body otherwise f) (.forLoop target e body otherwise span) w head
      ⟨fuel, t, v⟩ := by
  have all (u : World) : u.Carries expressions.good := World.carries_all (fun _ => trivial) u
  have contained := Runner.ofFuel_contained fuel
  have resolved := follows_onlyTarget (f := f) (t := target) (lawful_expressions fuel) .onlyOneVariable
    (fun x _ => admitsTarget_expressions x) w (all w)
  obtain ⟨item, w₁, found, comes⟩ := comes_past call resolved comes
  have iterated := follows_single (f := f) (lawful_expressions fuel) "iterable" (e := e) ⟨_, _, rfl⟩ trivial w₁ (all w₁)
  obtain ⟨x, u, run, comes⟩ := comes_past call iterated comes
  obtain ⟨k, u', made, comes⟩ := comes_past call (follows_body expressions body (f.labelled "for") u (all u)) comes
  have listed : expressions.Follows (.ofFuel fuel) expressions.Own
      (fun _ => (ofExcept x.elements).located (f.site e.span)) fun _ => True :=
    follows_located trivial (follows_ofExcept fun _ _ => trivial)
  obtain ⟨elements, u₁, there, called⟩ := comes_past call (listed u' (all u')) comes
  have same : u₁ = u' := by
    cases elems : x.elements with
    | error fault =>
      rw [elems] at there
      exact nomatch there
    | ok elements' =>
      rw [elems] at there
      cases there
      rfl
  subst same
  have ended := single_ok run
  have evaluates : Runner.Comes (fun r => r.forLoop target e body otherwise f) (.ofFuel fuel) w (.expr e f) w₁ :=
    resolved.comes_second found (comes_first (comes_first (comes_expr.mpr ⟨rfl, rfl⟩)))
  have before : Evolves .settled (some f.localScope) f.loading w w₁ := by
    have evolves := Runner.stays_onlyTarget contained f .onlyOneVariable target w
    rwa [found] at evolves
  have head {inner : Evaluation}
      (body' : Body fuel f (.forLoop target e body otherwise span) w ⟨fuel, .expr e f, w₁⟩ inner) :
      ∃ head, Heads fuel f (fun r => r.forLoop target e body otherwise f) (.forLoop target e body otherwise span) w head
        inner := ⟨⟨fuel, .expr e f, w₁⟩, rfl, evaluates, before, body'⟩
  have left : (mk fuel (.expr e f) w₁).outcome.2 = u := congrArg Prod.snd ended
  have result := congrArg Prod.fst ended
  split at called
  · obtain ⟨l, rfl, rfl, rfl⟩ := comes_optional.mp called
    exact head (.nothing found result (left.symm ▸ made))
  · have written {C : Conduct} (hg : ∀ c, C.good c) (h : ∀ g x, C.AdmitsTarget g x) (element : Value) :
        C.Follows (.ofFuel fuel) C.Own (fun _ => item.write element (f.labelled "for")) fun _ => True :=
      follows_write (h _ _) (element.carries_all hg)
    have stays (element : Value) : Stays (some f.localScope) f.loading (do
        item.write element (f.labelled "for")
        loopBody ((Runner.ofFuel fuel).call k [] .block (f.labelled "for"))) :=
      stays_bind (Runner.stays_write item element (f.labelled "for")) fun _ =>
        stays_loopBody (contained.call k [] .block (f.labelled "for") _)
    obtain ⟨element, u₂, rounds, comes⟩ := comes_forEach
      (fun element => follows_then (written (fun _ => trivial) (fun _ => admitsTarget_anything) element) fun _ =>
        anything_round ⟨fuel, rfl⟩) stays called
    obtain ⟨_, u₃, wrote, comes⟩ := comes_past call
      (written (fun _ => trivial) (fun _ => admitsTarget_expressions) element u₂ (all u₂)) comes
    obtain ⟨rfl, rfl⟩ := comes_round ⟨fuel, rfl⟩ comes
    have writes : Stays (some f.localScope) f.loading (item.write element (f.labelled "for")) :=
      Runner.stays_write item element (f.labelled "for")
    have last := writes u₂
    rw [wrote] at last
    exact head (.round found result (left.symm ▸ made) (rounds.trans last))

end Heads

/-! ## What the bodies find -/

section Sees

variable {fuel : Nat} {f : Frame} {op : Operation} {head inner : Evaluation} {w : World}

theorem part_sees {label : String} {body : Lambda} {v : World} (order : v.store.InOrder f.localScope) :
    ∃ k, (part fuel f label body v).task = .call (.closure k) [] .block (f.labelled label) ∧
      k.Sees f.localScope v (part fuel f label body v).world :=
  ⟨_, rfl, Closure.Sees.made (f := f.labelled label) order (close_run ..)⟩

/-- **Whatever the head leaves in the local scope, the body finds.** -/
theorem Body.finds (body : Body fuel f op w head inner) (order : head.world.store.InOrder f.localScope)
    {name : String} {c : CellId} (found : head.outcome.2.store.find? f.localScope name = some c) :
    inner.BodyFinds name c := by
  induction body with
  | branch ended _ | otherwise ended _ =>
    have left := (evolves_of_outcome rfl rfl (Prod.ext ended rfl) rfl).inOrder order
    obtain ⟨k, task, sees⟩ := part_sees left
    exact .of_sees task sees found
  | later _ _ _ ih => exact ih order found
  | @round _ _ _ _ _ _ v u _ _ _ k _ ended made run =>
    have left := (evolves_of_outcome rfl rfl (Prod.ext ended rfl) rfl).inOrder order
    obtain ⟨k, rfl⟩ : ∃ k', k = .closure k' := by
      rw [close_run] at made
      exact ⟨_, (Except.ok.inj (Prod.mk.inj made).1).symm⟩
    have sees : k.Sees f.localScope _ u := Closure.Sees.made (f := f.labelled "for") left made
    refine .of_sees rfl (sees.later run fun same => ?_) found
    -- the captured scope is fresh, and the local one is not
    rw [close_run] at made
    cases made
    exact left.ne_fresh same.symm
  | @nothing _ iterable body _ _ _ v u _ _ k _ ended made =>
    have left := (evolves_of_outcome rfl rfl (Prod.ext ended rfl) rfl).inOrder order
    have making : Evolves .settled none f.loading (mk fuel (.expr iterable f) v).outcome.2 u := by
      have makes : Stays none f.loading (close (f.labelled "for") body false) :=
        stays_close (f.labelled "for") body false
      have evolves := makes (mk fuel (.expr iterable f) v).outcome.2
      rwa [made] at evolves
    have kept : u.store.find? f.localScope name = some c := (making.grows.find?_eq left.known name).trans found
    obtain ⟨k, task, sees⟩ := part_sees (left.away making.grows nofun)
    exact .of_sees task sees kept

theorem follows_if {otherwise : Option Lambda} {branches : List Branch} : anything.FollowsIn (.ofFuel fuel)
    anything.Own (fun r => r.conditional otherwise f branches) (fun _ => True) w :=
  follows_conditional (lawful_ofFuel_anything fuel) (fun _ _ _ _ => trivial)
    (fun _ _ => ⟨trivial, fun _ _ => trivial⟩) w (World.carries_all (fun _ => trivial) w)

theorem follows_for {target : Targets} {iterable : Expr} {body : Lambda} {otherwise : Option Lambda} :
    anything.FollowsIn (.ofFuel fuel) anything.Own (fun r => r.forLoop target iterable body otherwise f)
      (fun _ => True) w :=
  follows_forLoop (lawful_ofFuel_anything fuel) (fun t _ => admitsTarget_anything t)
    (fun t _ => admitsTarget_anything t) trivial trivial (fun _ _ => trivial) (fun _ _ _ _ => trivial)
    (fun _ _ _ => trivial) w (World.carries_all (fun _ => trivial) w)

/-- **A body sees what its head declares.**  For every `if` and `for`, at any moment of a session, and every body that
the form calls: its head is evaluated by the form, too, and what it has left bound in the local scope of the frame the
body finds. -/
theorem body_sees_head {library : Library} {environment : Environment} {files : FileTree} {processId : String}
    (moment : (Session.start library environment files processId).Moment f w)
    (form : (∃ b rest otherwise span, op = .conditional (b :: rest) otherwise span) ∨
      ∃ target iterable body otherwise span, op = .forLoop target iterable body otherwise span)
    (runs : Runs ⟨fuel + 1, .operation op f, w⟩ inner) (call : ∀ e g, inner.task ≠ .expr e g) :
    ∃ head, Runs ⟨fuel + 1, .operation op f, w⟩ head ∧ Body fuel f op w head inner ∧
      ∀ name c, head.outcome.2.store.find? f.localScope name = some c → inner.BodyFinds name c := by
  obtain ⟨same, comes⟩ := runs
  obtain ⟨left, task, world⟩ := inner
  obtain rfl : fuel = left := Nat.succ.inj same
  suffices ∃ rule : Runner → Eval Unit, (∃ head, Heads fuel f rule op w head ⟨fuel, task, world⟩) ∧
      ∀ t v, Runner.Comes rule (.ofFuel fuel) w t v →
        Runner.Comes (fun r => r.perform (.operation op f)) (.ofFuel fuel) w t v by
    obtain ⟨rule, ⟨head, heads⟩, performs⟩ := this
    refine ⟨head, ⟨congrArg (· + 1) heads.same.symm, ?_⟩, heads.body, fun name c found => ?_⟩
    · rw [heads.same]
      exact performs _ _ heads.comes
    · exact heads.body.finds (heads.before.inOrder moment.inOrder) found
  obtain ⟨b, rest, otherwise, span, rfl⟩ | ⟨target, iterable, body, otherwise, span, rfl⟩ := form
  · exact ⟨_, heads_conditional (List.cons_ne_nil _ _) call (follows_if.comes_placed.mp comes),
      fun _ _ => follows_if.comes_placed.mpr⟩
  · exact ⟨_, heads_forLoop call (follows_for.comes_placed.mp comes), fun _ _ => follows_for.comes_placed.mpr⟩

/-- Where the first condition holds, its body is called. -/
theorem runs_branch {b : Branch} {after : List Branch} {otherwise : Option Lambda} {span : Span} {vs : List Value}
    (ended : (condition fuel f b w).outcome.1 = .ok vs) (holds : vs.all Value.truthy = true) :
    Runs ⟨fuel + 1, .operation (.conditional (b :: after) otherwise span) f, w⟩
      (part fuel f "if body" b.body (condition fuel f b w).outcome.2) := by
  have tested : expressions.FollowsIn (.ofFuel fuel) expressions.Own
      (fun r => r.holds b.condition (f.labelled "if cond")) (fun _ => True) w :=
    follows_holds (lawful_expressions fuel) ⟨_, _, rfl⟩ w (World.carries_all (fun _ => trivial) w)
  exact ⟨rfl, follows_if.comes_placed.mpr
    (tested.comes_second (holds_of_all ended holds) ((comes_part ..).mpr ⟨rfl, rfl⟩))⟩

end Sees

end Evaluation

namespace Session

open Evaluation

/-- In `if (x = a; put $true) { put $x }` the condition creates the variable, and the body finds it. -/
theorem body_sees_head_assigned :
    let source := Source.interactive "if (x = a; put $true) \x7b put $x \x7d"
    ∃ op form body c, bare.compile source = .ok op ∧ (bare.evaluation 9 op source .standard).Runs form ∧
      form.Runs body ∧ form.world.store.find? form.task.frame.localScope "x" = none ∧ body.BodyFinds "x" c := by
  intro source
  let assigned : Operation := .assign ⟨[.named "" "x" ⟨4, 5⟩], none, ⟨4, 5⟩⟩ [.literal "a" ⟨8, 9⟩] ⟨4, 9⟩
  let true' : Operation := .call (.name "put") [.reference ⟨false, "", "true"⟩ ⟨15, 20⟩] ⟨11, 20⟩
  let puts : Operation := .call (.name "put") [.reference ⟨false, "", "x"⟩ ⟨28, 30⟩] ⟨24, 30⟩
  let b : Branch := ⟨.capture (.chunk [assigned, true'] ⟨4, 20⟩) ⟨3, 21⟩,
    ⟨[], none, false, .chunk [puts] ⟨23, 31⟩, ⟨22, 32⟩⟩⟩
  have compiled : bare.compile source = .ok (.chunk [.conditional [b] none ⟨0, 32⟩] ⟨0, 32⟩) := by cbv
  let f := bare.frame source .standard (bare.world.store.newScope []).1
  let w := bare.entered
  let u := (condition 7 f b w).outcome.2
  have holds : ((condition 7 f b w).outcome.1.map fun vs => vs.all Value.truthy).toOption = some true := by
    decide +kernel
  have runs : Runs ⟨7 + 1, .operation (.conditional [b] none ⟨0, 32⟩) f, w⟩ (part 7 f "if body" b.body u) := by
    rcases ended : (condition 7 f b w).outcome.1 with stop | vs <;> rw [ended] at holds
    · cases holds
    · exact runs_branch ended (Option.some.inj holds)
  obtain ⟨head, -, body, finds⟩ := body_sees_head (.unit .now source .standard) (.inl ⟨b, [], none, _, rfl⟩) runs
    fun _ _ same => by cases same
  obtain rfl : head = condition 7 f b w := by
    generalize part 7 f "if body" b.body u = inner at body
    cases body with
    | branch => rfl
    | later _ _ rest => cases rest
  obtain ⟨c, found⟩ := Option.isSome_iff_exists.mp
    (by decide +kernel : (u.store.find? f.localScope "x").isSome = true)
  exact ⟨_, _, _, c, compiled, runs_first, runs, Option.isNone_iff_eq_none.mp (by decide +kernel), finds "x" c found⟩

/-- **The body of a `while` misses what its condition declares.**  The two units differ in the form alone, and compile.
After the first the variable is bound, and the output is its value; after the second it is bound, too, but the body
has failed to find it. -/
theorem while_body_misses_condition :
    let first := bare.evaluateCaptured 60 (.interactive "if (x = a; put $true) \x7b put $x \x7d") none
    let second := bare.evaluateCaptured 60 (.interactive "while (x = a; put $true) \x7b put $x; break \x7d") none
    (first.2.1.values.map Value.display = ["a"] ∧ (first.2.2.world.store.find? bare.globals "x").isSome = true) ∧
      second.2.1.values.map Value.display = [] ∧ (second.2.2.world.store.find? bare.globals "x").isSome = true ∧
      second.1.exception?.map Exception.fault = some (.variableNotFound "x") := by
  decide +kernel

end Session

end ValueShell
