/-
  Compilation establishes the scope judgement.

  The special forms come first, for any arguments whose ways to compile are SOUND: what they make is
  scoped, and only targets change the table.  The arguments that the compiler hands them are sound by
  induction over the syntax, which is the second half.

  Orderliness is a hypothesis about the operation that came out, and is taken apart along with it.
-/
import ValueShell.Proofs.Scoped

namespace ValueShell

open Compile

variable {early : String → Prop}

/-! ## Special forms -/

/-- **A sound argument**: in each of the ways to compile it, an orderly result is scoped, and the
table stays as it was except for what a target declares. -/
structure Argument.Sound (early : String → Prop) (a : Argument) : Prop where
  expr : ∀ {t e t'}, a.expr t = .ok (e, t') → e.Orderly early → t' = t ∧ e.Scoped early t
  lambda : ∀ x ∈ a.lambda?, ∀ {t l t'}, x t = .ok (l, t') → l.body.Orderly early →
    t' = t ∧ l.Scoped early t
  targets : ∀ x ∈ a.target?, ∀ {t ts t'}, x.targets t = .ok (ts, t') →
    (∀ g ∈ ts.all, ∀ e ∈ g.indices, e.Orderly early) → Target.ScopedEach early t ts.all t'
  brackets : ∀ x ∈ a.target?, ∀ {t bs t'}, x.brackets t = .ok (bs, t') →
    (∀ b ∈ bs, ∀ e ∈ b.items, e.Orderly early) →
    t' = t ∧ ∀ b ∈ bs, ∀ e ∈ b.items, e.Scoped early t

/-- **What compilation has to make**: an operation that is scoped if it is orderly, and after which the
table is the same if the operation is quiet. -/
def Operation.Made (early : String → Prop) (t : ScopeTable) (op : Operation) (t' : ScopeTable) :
    Prop :=
  op.Orderly early → op.Scoped early t t' ∧ (op.Quiet → t' = t)

/-- What a form has to become: such an operation, and no pipeline. -/
def Operation.MadeForm (early : String → Prop) (t : ScopeTable) (op : Operation)
    (t' : ScopeTable) : Prop :=
  (∀ ops span, op ≠ .pipeline ops span) ∧ op.Made early t t'

namespace SpecialForm

variable {t t' : ScopeTable} {stop : Nat} {span : Span} {args rest : List Argument}

/-- The next argument is the first of those that are left. -/
theorem next_ok {a : Argument} (h : next stop args t = .ok ((a, rest), t')) :
    args = a :: rest ∧ t' = t := by
  cases args with
  | nil => exact (failAt_ok h).elim
  | cons first others =>
    obtain ⟨heq, rfl⟩ := pure_ok h
    cases heq
    exact ⟨rfl, rfl⟩

/-- Nothing is left over. -/
theorem nothingElse_ok {u : Unit} (h : nothingElse args t = .ok (u, t')) :
    args = [] ∧ t' = t := by
  cases args with
  | nil => exact ⟨rfl, (pure_ok h).2⟩
  | cons first others => exact (failAt_ok h).elim

/-- A body is scoped where the argument stands. -/
theorem body_ok {a : Argument} (ha : a.Sound early) {l : Lambda}
    (h : a.body t = .ok (l, t')) (ho : l.body.Orderly early) :
    t' = t ∧ l.Scoped early t := by
  rw [Argument.body] at h
  cases hx : a.lambda? with
  | none =>
    rw [hx] at h
    exact (failAt_ok h).elim
  | some x =>
    rw [hx] at h
    exact ha.lambda x hx h ho

/-- So is the body that comes next. -/
theorem nextBody_ok (hargs : ∀ a ∈ args, a.Sound early) {l : Lambda}
    (h : nextBody stop args t = .ok ((l, rest), t')) (ho : l.body.Orderly early) :
    t' = t ∧ l.Scoped early t ∧ ∀ a ∈ rest, a.Sound early := by
  obtain ⟨⟨a, others⟩, t₁, h₁, hk⟩ := bind_ok h
  obtain ⟨rfl, rfl⟩ := next_ok h₁
  obtain ⟨l', t₂, h₂, hk⟩ := bind_ok hk
  obtain ⟨heq, rfl⟩ := pure_ok hk
  cases heq
  obtain ⟨rfl, hl⟩ := body_ok (hargs a List.mem_cons_self) h₂ ho
  exact ⟨rfl, hl, fun b hb => hargs b (List.mem_cons_of_mem _ hb)⟩

/-- And a body after a word. -/
theorem bodyAfter_ok (hargs : ∀ a ∈ args, a.Sound early) {word : String} {l : Option Lambda}
    (h : bodyAfter word stop args t = .ok ((l, rest), t'))
    (ho : ∀ x ∈ l, x.body.Orderly early) :
    t' = t ∧ (∀ x ∈ l, x.Scoped early t) ∧ ∀ a ∈ rest, a.Sound early := by
  cases args with
  | nil =>
    obtain ⟨heq, rfl⟩ := pure_ok h
    cases heq
    exact ⟨rfl, nofun, nofun⟩
  | cons a others =>
    rw [bodyAfter] at h
    by_cases hw : a.isWord word
    · rw [if_pos hw] at h
      obtain ⟨⟨l', rest'⟩, t₁, h₁, h⟩ := bind_ok h
      obtain ⟨heq, rfl⟩ := pure_ok h
      cases heq
      obtain ⟨rfl, hl, hrest⟩ :=
        nextBody_ok (fun b hb => hargs b (List.mem_cons_of_mem _ hb)) h₁ (ho l' rfl)
      exact ⟨rfl, fun x hx => by cases hx; exact hl, hrest⟩
    · rw [if_neg hw] at h
      obtain ⟨heq, rfl⟩ := pure_ok h
      cases heq
      exact ⟨rfl, nofun, hargs⟩

/-- The values of all arguments. -/
theorem exprs_ok (hargs : ∀ a ∈ args, a.Sound early) {es : List Expr}
    (h : exprs args t = .ok (es, t')) (ho : ∀ e ∈ es, e.Orderly early) :
    t' = t ∧ ∀ e ∈ es, e.Scoped early t := by
  induction args generalizing t t' es with
  | nil =>
    obtain ⟨rfl, rfl⟩ := pure_ok h
    exact ⟨rfl, nofun⟩
  | cons a others ih =>
    obtain ⟨e, t₁, h₁, h⟩ := bind_ok h
    obtain ⟨es', t₂, h₂, h⟩ := bind_ok h
    obtain ⟨rfl, rfl⟩ := pure_ok h
    obtain ⟨rfl, he⟩ := (hargs a List.mem_cons_self).expr h₁ (ho e List.mem_cons_self)
    obtain ⟨rfl, hes⟩ := ih (fun b hb => hargs b (List.mem_cons_of_mem _ hb)) h₂
      fun x hx => ho x (List.mem_cons_of_mem _ hx)
    refine ⟨rfl, fun x hx => ?_⟩
    rcases List.mem_cons.mp hx with rfl | hx
    · exact he
    · exact hes x hx

/-- A condition and its body, which every branch starts with. -/
theorem branch_ok {first second : Argument} (hfirst : first.Sound early)
    (hsecond : second.Sound early) {t₁ t₂ : ScopeTable} {b : Branch}
    (h₁ : first.expr t = .ok (b.condition, t₁)) (h₂ : second.body t₁ = .ok (b.body, t₂))
    (hcondition : b.condition.Orderly early) (hbody : b.body.body.Orderly early) :
    t₂ = t ∧ b.condition.Scoped early t ∧ b.body.Scoped early t := by
  obtain ⟨rfl, hc⟩ := hfirst.expr h₁ hcondition
  obtain ⟨rfl, hb⟩ := body_ok hsecond h₂ hbody
  exact ⟨rfl, hc, hb⟩

/-- The branches of an `if`, by recursion on the arguments. -/
theorem branches_ok : ∀ {args rest : List Argument} {t t' : ScopeTable} {bs : List Branch},
    (∀ a ∈ args, a.Sound early) → branches stop args t = .ok ((bs, rest), t') →
    (∀ b ∈ bs, b.condition.Orderly early) → (∀ b ∈ bs, b.body.body.Orderly early) →
    t' = t ∧ (∀ b ∈ bs, b.condition.Scoped early t ∧ b.body.Scoped early t) ∧
      ∀ a ∈ rest, a.Sound early
  | [], _, _, _, _, _, h, _, _ => (failAt_ok h).elim
  | [first], _, _, _, _, _, h, _, _ => by
    rw [branches] at h
    obtain ⟨condition, t₁, h₁, h⟩ := bind_ok h
    exact (failAt_ok h).elim
  | [first, second], rest, t, t', bs, hargs, h, hconditions, hbodies => by
    rw [branches] at h
    obtain ⟨condition, t₁, h₁, h⟩ := bind_ok h
    obtain ⟨body, t₂, h₂, h⟩ := bind_ok h
    obtain ⟨heq, rfl⟩ := pure_ok h
    cases heq
    obtain ⟨rfl, hb⟩ := branch_ok (b := ⟨condition, body⟩) (hargs first (by simp))
      (hargs second (by simp)) h₁ h₂ (hconditions _ (by simp)) (hbodies _ (by simp))
    exact ⟨rfl, fun x hx => by cases List.mem_singleton.mp hx; exact hb, nofun⟩
  | first :: second :: word :: others, rest, t, t', bs, hargs, h, hconditions, hbodies => by
    have hothers : ∀ a ∈ others, a.Sound early := fun a ha => hargs a (by simp [ha])
    rw [branches] at h
    obtain ⟨condition, t₁, h₁, h⟩ := bind_ok h
    obtain ⟨body, t₂, h₂, h⟩ := bind_ok h
    dsimp only at h
    by_cases hw : word.isWord "elif"
    · rw [if_pos hw] at h
      obtain ⟨⟨bs', rest'⟩, t₃, h₃, h⟩ := bind_ok h
      obtain ⟨heq, rfl⟩ := pure_ok h
      cases heq
      obtain ⟨rfl, hb⟩ := branch_ok (b := ⟨condition, body⟩) (hargs first (by simp))
        (hargs second (by simp)) h₁ h₂ (hconditions _ (by simp)) (hbodies _ (by simp))
      obtain ⟨rfl, hbs, hrest⟩ := branches_ok hothers h₃
        (fun x hx => hconditions x (List.mem_cons_of_mem _ hx))
        fun x hx => hbodies x (List.mem_cons_of_mem _ hx)
      refine ⟨rfl, fun x hx => ?_, hrest⟩
      rcases List.mem_cons.mp hx with rfl | hx
      · exact hb
      · exact hbs x hx
    · rw [if_neg hw] at h
      obtain ⟨heq, rfl⟩ := pure_ok h
      cases heq
      obtain ⟨rfl, hb⟩ := branch_ok (b := ⟨condition, body⟩) (hargs first (by simp))
        (hargs second (by simp)) h₁ h₂ (hconditions _ (by simp)) (hbodies _ (by simp))
      exact ⟨rfl, fun x hx => by cases List.mem_singleton.mp hx; exact hb,
        fun a ha => hargs a (by simp only [List.mem_cons] at ha ⊢; exact .inr (.inr ha))⟩

/-- **`if`.** -/
theorem compileIf_ok (hargs : ∀ a ∈ args, a.Sound early) {op : Operation}
    (h : compileIf span args t = .ok (op, t')) : op.MadeForm early t t' := by
  obtain ⟨⟨bs, rest₁⟩, t₁, h₁, hk⟩ := bind_ok h
  obtain ⟨⟨last, rest₂⟩, t₂, h₂, hk⟩ := bind_ok hk
  obtain ⟨u, t₃, h₃, hk⟩ := bind_ok hk
  obtain ⟨rfl, rfl⟩ := pure_ok hk
  refine ⟨nofun, fun ho => ?_⟩
  cases ho with
  | conditional conditions bodies lasts =>
    obtain ⟨rfl, hbs, hrest₁⟩ := branches_ok hargs h₁ conditions bodies
    obtain ⟨rfl, hlast, hrest₂⟩ := bodyAfter_ok hrest₁ h₂ lasts
    obtain ⟨-, rfl⟩ := nothingElse_ok h₃
    exact ⟨.conditional (fun b hb => (hbs b hb).1) (fun b hb => (hbs b hb).2) hlast, fun _ => rfl⟩

/-- **`while`.** -/
theorem compileWhile_ok (hargs : ∀ a ∈ args, a.Sound early) {op : Operation}
    (h : compileWhile span args t = .ok (op, t')) : op.MadeForm early t t' := by
  obtain ⟨⟨first, rest₁⟩, t₁, h₁, hk⟩ := bind_ok h
  obtain ⟨condition, t₂, h₂, hk⟩ := bind_ok hk
  obtain ⟨⟨body, rest₂⟩, t₃, h₃, hk⟩ := bind_ok hk
  obtain ⟨u, t₄, h₄, hk⟩ := bind_ok hk
  obtain ⟨rfl, rfl⟩ := pure_ok hk
  refine ⟨nofun, fun ho => ?_⟩
  cases ho with
  | whileLoop cond inner =>
    obtain ⟨rfl, rfl⟩ := next_ok h₁
    obtain ⟨rfl, hc⟩ := (hargs first List.mem_cons_self).expr h₂ cond
    obtain ⟨rfl, hb, -⟩ := nextBody_ok (fun a ha => hargs a (List.mem_cons_of_mem _ ha)) h₃ inner
    obtain ⟨-, rfl⟩ := nothingElse_ok h₄
    exact ⟨.whileLoop hc hb, fun _ => rfl⟩

/-- **`for`**: its variable is declared in the frame. -/
theorem compileFor_ok (hargs : ∀ a ∈ args, a.Sound early) {op : Operation}
    (h : compileFor span args t = .ok (op, t')) : op.MadeForm early t t' := by
  obtain ⟨⟨first, rest₁⟩, t₁, h₁, hk⟩ := bind_ok h
  obtain ⟨rfl, rfl⟩ := next_ok h₁
  have hfirst := hargs first List.mem_cons_self
  have hrest₁ : ∀ a ∈ rest₁, a.Sound early := fun a ha => hargs a (List.mem_cons_of_mem _ ha)
  dsimp only at hk
  cases hx : first.target? with
  | none =>
    rw [hx] at hk
    exact (failAt_ok hk).elim
  | some argument =>
    rw [hx] at hk
    obtain ⟨target, t₂, h₂, hk⟩ := bind_ok hk
    cases hr : target.rest with
    | some extra =>
      rw [hr] at hk
      exact (failAt_ok hk).elim
    | none =>
      rw [hr] at hk
      cases rest₁ with
      | nil => exact (failAt_ok hk).elim
      | cons word rest₂ =>
        have hrest₂ : ∀ a ∈ rest₂, a.Sound early :=
          fun a ha => hrest₁ a (List.mem_cons_of_mem _ ha)
        dsimp only at hk
        by_cases hw : !word.isWord "in"
        · rw [if_pos hw] at hk
          exact (failAt_ok hk).elim
        · rw [if_neg hw] at hk
          obtain ⟨⟨source, rest₃⟩, t₃, h₃, hk⟩ := bind_ok hk
          obtain ⟨iterable, t₄, h₄, hk⟩ := bind_ok hk
          obtain ⟨⟨body, rest₄⟩, t₅, h₅, hk⟩ := bind_ok hk
          obtain ⟨⟨last, rest₅⟩, t₆, h₆, hk⟩ := bind_ok hk
          obtain ⟨u, t₇, h₇, hk⟩ := bind_ok hk
          obtain ⟨rfl, rfl⟩ := pure_ok hk
          refine ⟨nofun, fun ho => ?_⟩
          cases ho with
          | forLoop names indices sources inner lasts =>
            obtain ⟨rfl, rfl⟩ := next_ok h₃
            have htarget := hfirst.targets argument hx h₂ indices
            obtain ⟨rfl, hs⟩ := (hrest₂ source List.mem_cons_self).expr h₄ sources
            obtain ⟨rfl, hb, hrest₄⟩ :=
              nextBody_ok (fun a ha => hrest₂ a (List.mem_cons_of_mem _ ha)) h₅ inner
            obtain ⟨rfl, hl, -⟩ := bodyAfter_ok hrest₄ h₆ lasts
            obtain ⟨-, rfl⟩ := nothingElse_ok h₇
            exact ⟨.forLoop names htarget hs hb hl, nofun⟩

/-- The variable of an `except`, which orderly code does not have. -/
theorem exceptTarget_ok {target : Option Targets}
    (h : exceptTarget args t = .ok ((target, rest), t')) (none : target = none) :
    rest = args ∧ t' = t := by
  subst none
  cases args with
  | nil =>
    obtain ⟨heq, rfl⟩ := pure_ok h
    cases heq
    exact ⟨rfl, rfl⟩
  | cons a others =>
    rw [exceptTarget] at h
    cases hx : a.target? with
    | none =>
      rw [hx] at h
      obtain ⟨heq, rfl⟩ := pure_ok h
      cases heq
      exact ⟨rfl, rfl⟩
    | some argument =>
      rw [hx] at h
      dsimp only at h
      by_cases hw : argument.indexing.head.bareword?.isNone
      · rw [if_pos hw] at h
        obtain ⟨heq, rfl⟩ := pure_ok h
        cases heq
        exact ⟨rfl, rfl⟩
      · rw [if_neg hw] at h
        obtain ⟨ts, t₁, h₁, hk⟩ := bind_ok h
        cases hr : ts.rest with
        | some extra =>
          rw [hr] at hk
          exact (failAt_ok hk).elim
        | none =>
          rw [hr] at hk
          obtain ⟨heq, -⟩ := pure_ok hk
          cases heq

/-- The `except` part, which in orderly code has no variable of its own. -/
theorem exceptPart_ok (hargs : ∀ a ∈ args, a.Sound early) {handler : Option Handler}
    (h : exceptPart stop args t = .ok ((handler, rest), t'))
    (unnamed : ∀ x ∈ handler, x.target = none)
    (handled : ∀ x ∈ handler, x.body.body.Orderly early) :
    t' = t ∧ (∀ x ∈ handler, x.body.Scoped early t) ∧ ∀ a ∈ rest, a.Sound early := by
  cases args with
  | nil =>
    obtain ⟨heq, rfl⟩ := pure_ok h
    cases heq
    exact ⟨rfl, nofun, nofun⟩
  | cons word others =>
    rw [exceptPart] at h
    by_cases hw : word.isWord "except"
    · rw [if_pos hw] at h
      obtain ⟨⟨target, rest₁⟩, t₁, h₁, hk⟩ := bind_ok h
      obtain ⟨⟨body, rest₂⟩, t₂, h₂, hk⟩ := bind_ok hk
      obtain ⟨heq, rfl⟩ := pure_ok hk
      cases heq
      obtain ⟨rfl, rfl⟩ := exceptTarget_ok h₁ (unnamed _ rfl)
      obtain ⟨rfl, hb, hrest⟩ :=
        nextBody_ok (fun a ha => hargs a (List.mem_cons_of_mem _ ha)) h₂ (handled _ rfl)
      exact ⟨rfl, fun x hx => by cases hx; exact hb, hrest⟩
    · rw [if_neg hw] at h
      obtain ⟨heq, rfl⟩ := pure_ok h
      cases heq
      exact ⟨rfl, nofun, hargs⟩

/-- **`try`.** -/
theorem compileTry_ok (hargs : ∀ a ∈ args, a.Sound early) {op : Operation}
    (h : compileTry span args t = .ok (op, t')) : op.MadeForm early t t' := by
  obtain ⟨⟨body, rest₁⟩, t₁, h₁, hk⟩ := bind_ok h
  obtain ⟨⟨handler, rest₂⟩, t₂, h₂, hk⟩ := bind_ok hk
  obtain ⟨⟨otherwise, rest₃⟩, t₃, h₃, hk⟩ := bind_ok hk
  obtain ⟨⟨finalizer, rest₄⟩, t₄, h₄, hk⟩ := bind_ok hk
  obtain ⟨u, t₅, h₅, hk⟩ := bind_ok hk
  obtain ⟨rfl, rfl⟩ := pure_ok hk
  refine ⟨nofun, fun ho => ?_⟩
  cases ho with
  | tryBlock inner unnamed handled last final =>
    obtain ⟨rfl, hb, hrest₁⟩ := nextBody_ok hargs h₁ inner
    obtain ⟨rfl, hh, hrest₂⟩ := exceptPart_ok hrest₁ h₂ unnamed handled
    obtain ⟨rfl, hl, hrest₃⟩ := bodyAfter_ok hrest₂ h₃ last
    obtain ⟨rfl, hf, -⟩ := bodyAfter_ok hrest₃ h₄ final
    obtain ⟨-, rfl⟩ := nothingElse_ok h₅
    exact ⟨.tryBlock hb unnamed hh hl hf, fun _ => rfl⟩

/-- **`fn`**: the name is declared before the body is compiled. -/
theorem compileFn_ok (hargs : ∀ a ∈ args, a.Sound early) {op : Operation}
    (h : compileFn span args t = .ok (op, t')) : op.MadeForm early t t' := by
  obtain ⟨⟨first, rest₁⟩, t₁, h₁, hk⟩ := bind_ok h
  obtain ⟨rfl, rfl⟩ := next_ok h₁
  dsimp only at hk
  cases hx : first.compound.literal? with
  | none =>
    rw [hx] at hk
    exact (failAt_ok hk).elim
  | some name =>
    rw [hx] at hk
    obtain ⟨u, t₂, h₂, hk⟩ := bind_ok hk
    obtain ⟨⟨body, rest₂⟩, t₃, h₃, hk⟩ := bind_ok hk
    obtain ⟨u', t₄, h₄, hk⟩ := bind_ok hk
    obtain ⟨rfl, rfl⟩ := pure_ok hk
    refine ⟨nofun, fun ho => ?_⟩
    cases ho with
    | define inner =>
      obtain rfl := modify_ok h₂
      obtain ⟨rfl, hb, -⟩ :=
        nextBody_ok (fun a ha => hargs a (List.mem_cons_of_mem _ ha)) h₃ inner
      obtain ⟨-, rfl⟩ := nothingElse_ok h₄
      exact ⟨.define hb, nofun⟩

/-- **`use`**: the namespace is declared. -/
theorem compileUse_ok {headStop : Nat} {op : Operation}
    (h : compileUse headStop span args t = .ok (op, t')) : op.MadeForm early t t' := by
  match args with
  | [] => exact (failAt_ok h).elim
  | [only] =>
    rw [compileUse] at h
    cases hx : only.compound.literal? with
    | none =>
      rw [hx] at h
      exact (failAt_ok h).elim
    | some spec =>
      rw [hx] at h
      obtain ⟨u, t₁, h₁, hk⟩ := bind_ok h
      obtain ⟨rfl, rfl⟩ := pure_ok hk
      obtain rfl := modify_ok h₁
      exact ⟨nofun, fun _ => ⟨.useModule, nofun⟩⟩
  | _ :: _ :: _ => exact (failAt_ok h).elim

/-- One argument of `del`, with whatever follows it. -/
theorem deletion_ok {a : Argument} (ha : a.Sound early) {d : Deletion}
    (h : deletion a t = .ok (d, t'))
    (indices : ∀ e, d = .element e → ∀ b ∈ e.brackets, ∀ i ∈ b.items, i.Orderly early)
    {ds : List Deletion} {t'' : ScopeTable} (rest : Deletion.ScopedEach early t' ds t'') :
    Deletion.ScopedEach early t (d :: ds) t'' := by
  rw [deletion] at h
  cases hx : a.target? with
  | none =>
    rw [hx] at h
    exact (failAt_ok h).elim
  | some argument =>
    rw [hx] at h
    dsimp only at h
    cases hh : argument.indexing.head with
    | bareword text span =>
      rw [hh] at h
      dsimp only at h
      obtain ⟨-, h⟩ := unless_ok h
      by_cases hb : argument.indexing.brackets.isEmpty
      · rw [if_pos hb] at h
        by_cases hl : (Reference.ofText text).ns = "" ∨ (Reference.ofText text).ns = "local"
        · rw [if_pos hl] at h
          obtain ⟨t₁, t₂, h₁, hk⟩ := bind_ok h
          obtain ⟨rfl, rfl⟩ := get_ok h₁
          obtain ⟨hc, hk⟩ := when_ok hk
          obtain ⟨u, t₃, h₂, hk⟩ := bind_ok hk
          obtain ⟨rfl, rfl⟩ := pure_ok hk
          obtain rfl := modify_ok h₂
          exact .localName (List.contains_iff_mem.mp hc) rest
        rw [if_neg hl] at h
        obtain ⟨-, h⟩ := when_ok h
        obtain ⟨rfl, rfl⟩ := pure_ok h
        exact .environment rest
      rw [if_neg hb] at h
      obtain ⟨t₁, t₂, h₁, hk⟩ := bind_ok h
      obtain ⟨rfl, rfl⟩ := get_ok h₁
      obtain ⟨hc, hk⟩ := when_ok hk
      obtain ⟨bs, t₃, h₂, hk⟩ := bind_ok hk
      obtain ⟨rfl, rfl⟩ := pure_ok hk
      obtain ⟨rfl, hall⟩ := ha.brackets argument hx h₂ (indices _ rfl)
      exact .element text ⟨rfl, rfl⟩ hc hall rest
    | reference | singleQuoted | doubleQuoted | capture | list | map | lambda | braced =>
      rw [hh] at h
      exact (failAt_ok h).elim

/-- The deletions of a `del`, one after the other. -/
theorem deletions_ok (hargs : ∀ a ∈ args, a.Sound early) {ds : List Deletion}
    (h : deletions args t = .ok (ds, t'))
    (indices : ∀ e, .element e ∈ ds → ∀ b ∈ e.brackets, ∀ i ∈ b.items, i.Orderly early) :
    Deletion.ScopedEach early t ds t' := by
  induction args generalizing t ds with
  | nil =>
    obtain ⟨rfl, rfl⟩ := pure_ok h
    exact .nil
  | cons a others ih =>
    obtain ⟨d, t₁, h₁, hk⟩ := bind_ok h
    obtain ⟨ds', t₂, h₂, hk⟩ := bind_ok hk
    obtain ⟨rfl, rfl⟩ := pure_ok hk
    refine deletion_ok (hargs a List.mem_cons_self) h₁ (fun e he => indices e (by simp [he])) ?_
    exact ih (fun b hb => hargs b (List.mem_cons_of_mem _ hb)) h₂
      fun e he => indices e (List.mem_cons_of_mem _ he)

/-- **Every special form**, from sound arguments. -/
theorem compile_ok (form : SpecialForm) {headStop : Nat} (hargs : ∀ a ∈ args, a.Sound early)
    {op : Operation} (h : form.compile headStop span args t = .ok (op, t')) :
    op.MadeForm early t t' := by
  cases form with
  | ifForm => exact compileIf_ok hargs h
  | whileForm => exact compileWhile_ok hargs h
  | forForm => exact compileFor_ok hargs h
  | tryForm => exact compileTry_ok hargs h
  | fnForm => exact compileFn_ok hargs h
  | useForm => exact compileUse_ok h
  | andForm | orForm =>
    obtain ⟨es, t₁, h₁, hk⟩ := bind_ok h
    obtain ⟨rfl, rfl⟩ := pure_ok hk
    refine ⟨nofun, fun ho => ?_⟩
    cases ho with
    | connective all =>
      obtain ⟨rfl, hes⟩ := exprs_ok hargs h₁ all
      exact ⟨.connective hes, fun _ => rfl⟩
  | delForm =>
    obtain ⟨ds, t₁, h₁, hk⟩ := bind_ok h
    obtain ⟨rfl, rfl⟩ := pure_ok hk
    refine ⟨nofun, fun ho => ?_⟩
    cases ho with
    | delete indices => exact ⟨.delete (deletions_ok hargs h₁ indices), nofun⟩

end SpecialForm

/-! ## Lambdas, targets and sequences -/

section Parts

variable {t t' : ScopeTable}

/-- A signature declares nothing in the table around it. -/
theorem signature_ok {params : List Param} {names : List String} {rest : Option String}
    (h : signature params t = .ok ((names, rest), t')) :
    t' = t ∧ (params = [] → names = [] ∧ rest = none) := by
  induction params generalizing t t' names rest with
  | nil =>
    obtain ⟨heq, rfl⟩ := pure_ok h
    cases heq
    exact ⟨rfl, fun _ => ⟨rfl, rfl⟩⟩
  | cons p ps ih =>
    refine ⟨?_, nofun⟩
    obtain ⟨step, hstep⟩ : ∃ step, signature (p :: ps) = step := ⟨_, rfl⟩
    rw [hstep] at h
    rw [signature] at hstep
    split at hstep <;> subst hstep
    · by_cases hp : ps.isEmpty
      · rw [if_pos hp] at h
        exact (pure_ok h).2
      · rw [if_neg hp] at h
        exact (failAt_ok h).elim
    · obtain ⟨⟨names', rest'⟩, t₁, h₁, hk⟩ := bind_ok h
      obtain ⟨heq, rfl⟩ := pure_ok hk
      exact (ih h₁).1

/-- A lambda, given that what its body compiles to is scoped. -/
theorem closeOver_ok {params : List Param} {body : Compile Operation} {span : Span} {l : Lambda}
    (hbody : ∀ {t op t'}, body t = .ok (op, t') → op.Made early t t')
    (h : closeOver params body span t = .ok (l, t')) (ho : l.body.Orderly early) :
    t' = t ∧ l.Scoped early t := by
  obtain ⟨⟨names, rest⟩, t₁, h₁, hk⟩ := bind_ok h
  obtain ⟨u, t₂, h₂, hk⟩ := bind_ok hk
  obtain ⟨op, t₃, h₃, hk⟩ := bind_ok hk
  obtain ⟨u', t₄, h₄, hk⟩ := bind_ok hk
  obtain ⟨rfl, rfl⟩ := pure_ok hk
  obtain ⟨rfl, hsig⟩ := signature_ok h₁
  obtain rfl := modify_ok h₂
  obtain rfl := modify_ok h₄
  have hscoped := (hbody h₃ ho).1
  refine ⟨ScopeTable.leave_of_sameOuter hscoped.sameOuter, .intro (fun hs => hsig ?_) hscoped⟩
  cases params with
  | nil => rfl
  | cons => exact nomatch hs

/-- A target that is a variable, with whatever follows it. -/
theorem targetOf_ok {i : Indexing} {brackets : Compile (List IndexBracket)} {explode : Bool}
    {g : Target}
    (hbrackets : ∀ {t t'} {bs : List IndexBracket}, brackets t = .ok (bs, t') →
      (∀ b ∈ bs, ∀ e ∈ b.items, e.Orderly early) →
      t' = t ∧ ∀ b ∈ bs, ∀ e ∈ b.items, e.Scoped early t)
    (h : targetOf i brackets t = .ok ((explode, g), t'))
    (indices : ∀ e ∈ g.indices, e.Orderly early) {ts : List Target} {t'' : ScopeTable}
    (rest : Target.ScopedEach early t' ts t'') : Target.ScopedEach early t (g :: ts) t'' := by
  rw [targetOf] at h
  cases hx : i.head.literal? with
  | none =>
    rw [hx] at h
    exact (failAt_ok h).elim
  | some text =>
    rw [hx] at h
    dsimp only at h
    obtain ⟨-, h⟩ := unless_ok h
    by_cases hb : i.brackets.isEmpty
    · rw [if_pos hb] at h
      obtain ⟨t₁, t₂, h₁, hk⟩ := bind_ok h
      obtain ⟨rfl, rfl⟩ := get_ok h₁
      cases ha : t₂.assign? (Reference.ofText text).ns (Reference.ofText text).name with
      | none =>
        rw [ha] at hk
        exact (failAt_ok hk).elim
      | some table =>
        rw [ha] at hk
        obtain ⟨u, t₃, h₂, hk⟩ := bind_ok hk
        obtain ⟨heq, rfl⟩ := pure_ok hk
        obtain rfl := set_ok h₂
        cases heq
        exact .named ha rest
    rw [if_neg hb] at h
    obtain ⟨-, h⟩ := unless_ok h
    obtain ⟨t₁, t₂, h₁, hk⟩ := bind_ok h
    obtain ⟨rfl, rfl⟩ := get_ok h₁
    obtain ⟨hc, hk⟩ := when_ok hk
    obtain ⟨bs, t₃, h₂, hk⟩ := bind_ok hk
    obtain ⟨heq, rfl⟩ := pure_ok hk
    cases heq
    obtain ⟨rfl, hall⟩ := hbrackets h₂ fun b hb e he =>
      indices e (List.mem_flatMap.mpr ⟨b, hb, he⟩)
    exact .element text ⟨rfl, rfl⟩ hc hall rest

/-- A left side that is one target. -/
theorem oneTarget_ok {i : Indexing} {brackets : Compile (List IndexBracket)} {span : Span}
    {ts : Targets}
    (hbrackets : ∀ {t t'} {bs : List IndexBracket}, brackets t = .ok (bs, t') →
      (∀ b ∈ bs, ∀ e ∈ b.items, e.Orderly early) →
      t' = t ∧ ∀ b ∈ bs, ∀ e ∈ b.items, e.Scoped early t)
    (h : (do
      let (explode, target) ← targetOf i brackets
      return if explode then ⟨[], some target, span⟩ else ⟨[target], none, span⟩ :
        Compile Targets) t = .ok (ts, t'))
    (ho : ∀ g ∈ ts.all, ∀ e ∈ g.indices, e.Orderly early) :
    Target.ScopedEach early t ts.all t' := by
  obtain ⟨⟨explode, g⟩, t₁, h₁, hk⟩ := bind_ok h
  obtain ⟨rfl, rfl⟩ := pure_ok hk
  cases explode <;> exact targetOf_ok hbrackets h₁ (ho g List.mem_cons_self) .nil

/-- Operations that were compiled one after the other. -/
structure MadeEach (early : String → Prop) (t : ScopeTable) (ops : List Operation)
    (t' : ScopeTable) : Prop where
  each : Operation.ScopedEach early t ops t'
  quiet : (∀ op ∈ ops, op.Quiet) → t' = t ∧ ∀ op ∈ ops, op.Scoped early t t

theorem MadeEach.nil : MadeEach early t [] t := ⟨.nil, fun _ => ⟨rfl, nofun⟩⟩

/-- Operations are made one after the other, each with the table that the one before has left. -/
theorem MadeEach.cons {op : Operation} {ops : List Operation} {t'' : ScopeTable}
    (first : op.Scoped early t t' ∧ (op.Quiet → t' = t)) (rest : MadeEach early t' ops t'') :
    MadeEach early t (op :: ops) t'' := by
  refine ⟨.cons first.1 rest.each, fun hq => ?_⟩
  obtain rfl := first.2 (hq op List.mem_cons_self)
  obtain ⟨rfl, hops⟩ := rest.quiet fun x hx => hq x (List.mem_cons_of_mem _ hx)
  refine ⟨rfl, fun x hx => ?_⟩
  rcases List.mem_cons.mp hx with rfl | hx
  · exact first.1
  · exact hops x hx

/-- One operation alone. -/
theorem MadeEach.only {op : Operation} (h : MadeEach early t [op] t') :
    op.Scoped early t t' ∧ (op.Quiet → t' = t) := by
  refine ⟨?_, fun hq => (h.quiet fun x hx => by rwa [List.mem_singleton.mp hx]).1⟩
  cases h.each with
  | cons first rest =>
    cases rest with
    | nil => exact first

end Parts

/-! ## The syntax -/

/-- Only a lambda alone is compiled as a lambda. -/
theorem Compound.compileLambda?_shape {c : Compound} {x : Compile Lambda}
    (h : x ∈ c.compileLambda?) :
    ∃ (params : List Param) (body : Chunk) (inner outer : Span),
      c.indexings = [⟨.lambda params body inner, [], outer⟩] := by
  unfold Compound.compileLambda? at h
  split at h
  · exact ⟨_, _, _, _, rfl⟩
  · exact nomatch h

/-- Only a word of one part is compiled as a target. -/
theorem Compound.targetArgument?_shape {c : Compound} {x : TargetArgument}
    (h : x ∈ c.targetArgument?) : c.indexings.length = 1 := by
  unfold Compound.targetArgument? at h
  split at h
  · rfl
  · exact nomatch h

mutual

/-- **A chunk is made of its pipelines.** -/
theorem Chunk.compile_ok : ∀ (c : Chunk) {t t' : ScopeTable} {op : Operation},
    c.compile t = .ok (op, t') → op.Made early t t'
  | ⟨pipelines, span⟩, t, t', op, h => by
    obtain ⟨ops, t₁, h₁, hk⟩ := bind_ok h
    obtain ⟨rfl, rfl⟩ := pure_ok hk
    intro ho
    cases ho with
    | chunk all =>
      have made := compilePipelines_ok pipelines h₁ all
      exact ⟨.chunk made.each, fun hq => by cases hq with | chunk hq => exact (made.quiet hq).1⟩

theorem compilePipelines_ok : ∀ (ps : List Pipeline) {t t' : ScopeTable} {ops : List Operation},
    compilePipelines ps t = .ok (ops, t') → (∀ op ∈ ops, op.Orderly early) →
    MadeEach early t ops t'
  | [], _, _, _, h, _ => by
    obtain ⟨rfl, rfl⟩ := pure_ok h
    exact .nil
  | p :: ps, _, _, _, h, ho => by
    obtain ⟨op, t₁, h₁, hk⟩ := bind_ok h
    obtain ⟨ops, t₂, h₂, hk⟩ := bind_ok hk
    obtain ⟨rfl, rfl⟩ := pure_ok hk
    exact .cons (Pipeline.compile_ok p h₁ (ho op List.mem_cons_self))
      (compilePipelines_ok ps h₂ fun x hx => ho x (List.mem_cons_of_mem _ hx))

theorem Pipeline.compile_ok : ∀ (p : Pipeline) {t t' : ScopeTable} {op : Operation},
    p.compile t = .ok (op, t') → op.Made early t t'
  | ⟨forms, span⟩, t, t', op, h => by
    obtain ⟨ops, t₁, h₁, hk⟩ := bind_ok h
    obtain ⟨rfl, rfl⟩ := pure_ok hk
    intro ho
    match ops, h₁, ho with
    | [only], h₁, ho =>
      exact ((compileForms_ok forms h₁).2 fun x hx => by rwa [List.mem_singleton.mp hx]).only
    | [], h₁, ho =>
      have made := (compileForms_ok forms h₁).2 nofun
      obtain ⟨rfl, -⟩ := made.quiet nofun
      exact ⟨.pipeline nofun nofun, fun _ => rfl⟩
    | first :: second :: rest, h₁, ho =>
      obtain ⟨isForm, made⟩ := compileForms_ok forms h₁
      cases ho with
      | pipeline all stages =>
        have hq : ∀ op ∈ first :: second :: rest, op.Quiet := fun x hx =>
          (all x hx).quiet (stages (by simp) x hx) (isForm x hx)
        obtain ⟨rfl, hall⟩ := (made all).quiet hq
        exact ⟨.pipeline hq hall, fun _ => rfl⟩

theorem compileForms_ok : ∀ (fs : List Form) {t t' : ScopeTable} {ops : List Operation},
    compileForms fs t = .ok (ops, t') →
    (∀ op ∈ ops, ∀ ops' span, op ≠ .pipeline ops' span) ∧
      ((∀ op ∈ ops, op.Orderly early) → MadeEach early t ops t')
  | [], _, _, _, h => by
    obtain ⟨rfl, rfl⟩ := pure_ok h
    exact ⟨nofun, fun _ => .nil⟩
  | f :: fs, _, _, _, h => by
    obtain ⟨op, t₁, h₁, hk⟩ := bind_ok h
    obtain ⟨ops, t₂, h₂, hk⟩ := bind_ok hk
    obtain ⟨rfl, rfl⟩ := pure_ok hk
    obtain ⟨isForm, made⟩ := Form.compile_ok f h₁
    obtain ⟨areForms, rest⟩ := compileForms_ok fs h₂
    refine ⟨fun x hx => ?_, fun ho => .cons (made (ho op List.mem_cons_self))
      (rest fun x hx => ho x (List.mem_cons_of_mem _ hx))⟩
    rcases List.mem_cons.mp hx with rfl | hx
    · exact isForm
    · exact areForms x hx

/-- A form: assignments, a special form, or a command. -/
theorem Form.compile_ok : ∀ (f : Form) {t t' : ScopeTable} {op : Operation},
    f.compile t = .ok (op, t') → op.MadeForm early t t'
  | .assign assignments span, t, t', op, h => by
    obtain ⟨ops, t₁, h₁, hk⟩ := bind_ok h
    obtain ⟨rfl, rfl⟩ := pure_ok hk
    obtain ⟨areForms, made⟩ := compileAssignments_ok assignments h₁
    match ops, areForms, made with
    | [only], areForms, made =>
      exact ⟨areForms only (by simp),
        fun ho => (made fun x hx => by rwa [List.mem_singleton.mp hx]).only⟩
    | [], _, made =>
      refine ⟨nofun, fun ho => ?_⟩
      have made := made nofun
      exact ⟨.chunk made.each, fun _ => (made.quiet nofun).1⟩
    | first :: second :: rest, _, made =>
      refine ⟨nofun, fun ho => ?_⟩
      cases ho with
      | chunk all =>
        have made := made all
        exact ⟨.chunk made.each, fun hq => by cases hq with | chunk hq => exact (made.quiet hq).1⟩
  | .command head args span, t, t', op, h => by
    rw [Form.compile] at h
    cases hl : head.literal? with
    | some name =>
      rw [hl] at h
      dsimp only at h
      cases hf : SpecialForm.ofName? name with
      | some form =>
        rw [hf] at h
        exact form.compile_ok (arguments_sound args) h
      | none =>
        rw [hf] at h
        obtain ⟨es, t₁, h₁, hk⟩ := bind_ok h
        obtain ⟨rfl, rfl⟩ := pure_ok hk
        refine ⟨nofun, fun ho => ?_⟩
        cases ho with
        | call callee all =>
          obtain ⟨rfl, hes⟩ := compileCompounds_ok args h₁ all
          exact ⟨.call nofun hes, fun _ => rfl⟩
    | none =>
      rw [hl] at h
      obtain ⟨callee, t₁, h₁, hk⟩ := bind_ok h
      obtain ⟨es, t₂, h₂, hk⟩ := bind_ok hk
      obtain ⟨rfl, rfl⟩ := pure_ok hk
      refine ⟨nofun, fun ho => ?_⟩
      cases ho with
      | call value all =>
        obtain ⟨rfl, he⟩ := Compound.compile_ok head h₁ (value callee rfl)
        obtain ⟨rfl, hes⟩ := compileCompounds_ok args h₂ all
        exact ⟨.call (fun e heq => by cases heq; exact he) hes, fun _ => rfl⟩

theorem compileAssignments_ok : ∀ (as : List Assignment) {t t' : ScopeTable}
    {ops : List Operation}, compileAssignments as t = .ok (ops, t') →
    (∀ op ∈ ops, ∀ ops' span, op ≠ .pipeline ops' span) ∧
      ((∀ op ∈ ops, op.Orderly early) → MadeEach early t ops t')
  | [], _, _, _, h => by
    obtain ⟨rfl, rfl⟩ := pure_ok h
    exact ⟨nofun, fun _ => .nil⟩
  | a :: as, _, _, _, h => by
    obtain ⟨op, t₁, h₁, hk⟩ := bind_ok h
    obtain ⟨ops, t₂, h₂, hk⟩ := bind_ok hk
    obtain ⟨rfl, rfl⟩ := pure_ok hk
    obtain ⟨isForm, made⟩ := Assignment.compile_ok a h₁
    obtain ⟨areForms, rest⟩ := compileAssignments_ok as h₂
    refine ⟨fun x hx => ?_, fun ho => .cons (made (ho op List.mem_cons_self))
      (rest fun x hx => ho x (List.mem_cons_of_mem _ hx))⟩
    rcases List.mem_cons.mp hx with rfl | hx
    · exact isForm
    · exact areForms x hx

/-- An assignment declares its new targets. -/
theorem Assignment.compile_ok : ∀ (a : Assignment) {t t' : ScopeTable} {op : Operation},
    a.compile t = .ok (op, t') → op.MadeForm early t t'
  | ⟨left, right, span⟩, t, t', op, h => by
    obtain ⟨values, t₁, h₁, hk⟩ := bind_ok h
    obtain ⟨targets, t₂, h₂, hk⟩ := bind_ok hk
    obtain ⟨rfl, rfl⟩ := pure_ok hk
    refine ⟨nofun, fun ho => ?_⟩
    cases ho with
    | assign names indices all =>
      obtain ⟨rfl, hvalues⟩ := compileCompounds_ok right h₁ all
      exact ⟨.assign names (Indexing.compileTargets_ok left h₂ indices) hvalues, nofun⟩

/-- Targets are declared from left to right. -/
theorem Indexing.compileTargets_ok : ∀ (i : Indexing) {t t' : ScopeTable} {ts : Targets},
    i.compileTargets t = .ok (ts, t') → (∀ g ∈ ts.all, ∀ e ∈ g.indices, e.Orderly early) →
    Target.ScopedEach early t ts.all t'
  | ⟨.braced items inner, brackets, span⟩, t, t', ts, h, ho => by
    rw [Indexing.compileTargets] at h
    obtain ⟨-, h⟩ := unless_ok h
    cases hm : misshapen? items with
    | some item =>
      rw [hm] at h
      exact (failAt_ok h).elim
    | none =>
      rw [hm] at h
      obtain ⟨⟨fixed, rest⟩, t₁, h₁, hk⟩ := bind_ok h
      obtain ⟨rfl, rfl⟩ := pure_ok hk
      exact compileTargetItems_ok items h₁ ho
  | ⟨.bareword text inner, brackets, span⟩, _, _, _, h, ho =>
    oneTarget_ok (compileBrackets_ok brackets) h ho
  | ⟨.singleQuoted text inner, brackets, span⟩, _, _, _, h, ho =>
    oneTarget_ok (compileBrackets_ok brackets) h ho
  | ⟨.doubleQuoted text inner, brackets, span⟩, _, _, _, h, ho =>
    oneTarget_ok (compileBrackets_ok brackets) h ho
  | ⟨.reference text inner, brackets, span⟩, _, _, _, h, ho =>
    oneTarget_ok (compileBrackets_ok brackets) h ho
  | ⟨.capture chunk inner, brackets, span⟩, _, _, _, h, ho =>
    oneTarget_ok (compileBrackets_ok brackets) h ho
  | ⟨.list items inner, brackets, span⟩, _, _, _, h, ho =>
    oneTarget_ok (compileBrackets_ok brackets) h ho
  | ⟨.map pairs inner, brackets, span⟩, _, _, _, h, ho =>
    oneTarget_ok (compileBrackets_ok brackets) h ho
  | ⟨.lambda params body inner, brackets, span⟩, _, _, _, h, ho =>
    oneTarget_ok (compileBrackets_ok brackets) h ho

theorem compileTargetItems_ok : ∀ (items : List Compound) {t t' : ScopeTable}
    {fixed : List Target} {rest : Option Target},
    compileTargetItems items t = .ok ((fixed, rest), t') →
    (∀ g ∈ fixed ++ rest.toList, ∀ e ∈ g.indices, e.Orderly early) →
    Target.ScopedEach early t (fixed ++ rest.toList) t'
  | [], _, _, _, _, h, _ => by
    obtain ⟨heq, rfl⟩ := pure_ok h
    cases heq
    exact .nil
  | ⟨[⟨head, brackets, span⟩], _⟩ :: items, t, t', fixed, rest, h, ho => by
    obtain ⟨⟨explode, g⟩, t₁, h₁, hk⟩ := bind_ok h
    dsimp only at hk
    by_cases he : explode
    · rw [if_pos he] at hk
      obtain ⟨-, hk⟩ := when_ok hk
      obtain ⟨heq, rfl⟩ := pure_ok hk
      cases heq
      exact targetOf_ok (compileBrackets_ok brackets) h₁ (ho g (by simp)) .nil
    · rw [if_neg he] at hk
      obtain ⟨⟨fixed', rest'⟩, t₂, h₂, hk⟩ := bind_ok hk
      obtain ⟨heq, rfl⟩ := pure_ok hk
      cases heq
      refine targetOf_ok (compileBrackets_ok brackets) h₁ (ho g (by simp)) ?_
      exact compileTargetItems_ok items h₂ fun x hx => ho x (List.mem_cons_of_mem _ hx)
  | ⟨[], _⟩ :: _, _, _, _, _, h, _ => (failAt_ok h).elim
  | ⟨_ :: _ :: _, _⟩ :: _, _, _, _, _, h, _ => by
    simp only [compileTargetItems] at h
    exact (failAt_ok h).elim

theorem arguments_sound : ∀ (cs : List Compound), ∀ a ∈ arguments cs, a.Sound early
  | [], _, ha => nomatch ha
  | c :: cs, a, ha => by
    rcases List.mem_cons.mp ha with rfl | ha
    · exact {
        expr := Compound.compile_ok c
        lambda := Compound.compileLambda?_ok c
        targets := fun x hx => (Compound.targetArgument?_ok c x hx).1
        brackets := fun x hx => (Compound.targetArgument?_ok c x hx).2 }
    · exact arguments_sound cs a ha

theorem Compound.compileLambda?_ok : ∀ (c : Compound), ∀ x ∈ c.compileLambda?,
    ∀ {t l t'}, x t = .ok (l, t') → l.body.Orderly early → t' = t ∧ l.Scoped early t
  | ⟨[⟨.lambda params body _, [], _⟩], span⟩, x, hx, t, l, t', h, ho => by
    cases hx
    exact closeOver_ok (fun hb => Chunk.compile_ok body hb) h ho
  | ⟨[], _⟩, _, hx, _, _, _, _, _ => nomatch hx
  | ⟨_ :: _ :: _, _⟩, _, hx, _, _, _, _, _ => nomatch Compound.compileLambda?_shape hx
  | ⟨[⟨_, _ :: _, _⟩], _⟩, _, hx, _, _, _, _, _ => nomatch Compound.compileLambda?_shape hx
  | ⟨[⟨.bareword .., [], _⟩], _⟩, _, hx, _, _, _, _, _ => nomatch hx
  | ⟨[⟨.singleQuoted .., [], _⟩], _⟩, _, hx, _, _, _, _, _ => nomatch hx
  | ⟨[⟨.doubleQuoted .., [], _⟩], _⟩, _, hx, _, _, _, _, _ => nomatch hx
  | ⟨[⟨.reference .., [], _⟩], _⟩, _, hx, _, _, _, _, _ => nomatch hx
  | ⟨[⟨.capture .., [], _⟩], _⟩, _, hx, _, _, _, _, _ => nomatch hx
  | ⟨[⟨.list .., [], _⟩], _⟩, _, hx, _, _, _, _, _ => nomatch hx
  | ⟨[⟨.map .., [], _⟩], _⟩, _, hx, _, _, _, _, _ => nomatch hx
  | ⟨[⟨.braced .., [], _⟩], _⟩, _, hx, _, _, _, _, _ => nomatch hx

theorem Compound.targetArgument?_ok : ∀ (c : Compound), ∀ x ∈ c.targetArgument?,
    (∀ {t ts t'}, x.targets t = .ok (ts, t') →
      (∀ g ∈ ts.all, ∀ e ∈ g.indices, e.Orderly early) → Target.ScopedEach early t ts.all t') ∧
    ∀ {t bs t'}, x.brackets t = .ok (bs, t') → (∀ b ∈ bs, ∀ e ∈ b.items, e.Orderly early) →
      t' = t ∧ ∀ b ∈ bs, ∀ e ∈ b.items, e.Scoped early t
  | ⟨[⟨head, brackets, span⟩], _⟩, x, hx => by
    cases hx
    exact ⟨fun h ho => Indexing.compileTargets_ok ⟨head, brackets, span⟩ h ho,
      fun h ho => compileBrackets_ok brackets h ho⟩
  | ⟨[], _⟩, _, hx => nomatch hx
  | ⟨_ :: _ :: _, _⟩, _, hx => nomatch Compound.targetArgument?_shape hx

theorem compileCompounds_ok : ∀ (cs : List Compound) {t t' : ScopeTable} {es : List Expr},
    compileCompounds cs t = .ok (es, t') → (∀ e ∈ es, e.Orderly early) →
    t' = t ∧ ∀ e ∈ es, e.Scoped early t
  | [], _, _, _, h, _ => by
    obtain ⟨rfl, rfl⟩ := pure_ok h
    exact ⟨rfl, nofun⟩
  | c :: cs, _, _, _, h, ho => by
    obtain ⟨e, t₁, h₁, hk⟩ := bind_ok h
    obtain ⟨es, t₂, h₂, hk⟩ := bind_ok hk
    obtain ⟨rfl, rfl⟩ := pure_ok hk
    obtain ⟨rfl, he⟩ := Compound.compile_ok c h₁ (ho e List.mem_cons_self)
    obtain ⟨rfl, hes⟩ := compileCompounds_ok cs h₂ fun x hx => ho x (List.mem_cons_of_mem _ hx)
    refine ⟨rfl, fun x hx => ?_⟩
    rcases List.mem_cons.mp hx with rfl | hx
    · exact he
    · exact hes x hx

/-- A word is scoped, and leaves the table as it is. -/
theorem Compound.compile_ok : ∀ (c : Compound) {t t' : ScopeTable} {e : Expr},
    c.compile t = .ok (e, t') → e.Orderly early → t' = t ∧ e.Scoped early t
  | ⟨[], span⟩, _, _, _, h, _ => by
    obtain ⟨rfl, rfl⟩ := pure_ok h
    exact ⟨rfl, .literal⟩
  | ⟨[only], _⟩, _, _, _, h, ho => Indexing.compile_ok only h ho
  | ⟨first :: second :: rest, span⟩, _, _, _, h, ho => by
    obtain ⟨parts, t₁, h₁, hk⟩ := bind_ok h
    obtain ⟨rfl, rfl⟩ := pure_ok hk
    cases ho with
    | compound all =>
      obtain ⟨rfl, hparts⟩ := compileIndexings_ok (first :: second :: rest) h₁ all
      exact ⟨rfl, .compound hparts⟩

theorem compileIndexings_ok : ∀ (is : List Indexing) {t t' : ScopeTable} {es : List Expr},
    compileIndexings is t = .ok (es, t') → (∀ e ∈ es, e.Orderly early) →
    t' = t ∧ ∀ e ∈ es, e.Scoped early t
  | [], _, _, _, h, _ => by
    obtain ⟨rfl, rfl⟩ := pure_ok h
    exact ⟨rfl, nofun⟩
  | i :: is, _, _, _, h, ho => by
    obtain ⟨e, t₁, h₁, hk⟩ := bind_ok h
    obtain ⟨es, t₂, h₂, hk⟩ := bind_ok hk
    obtain ⟨rfl, rfl⟩ := pure_ok hk
    obtain ⟨rfl, he⟩ := Indexing.compile_ok i h₁ (ho e List.mem_cons_self)
    obtain ⟨rfl, hes⟩ := compileIndexings_ok is h₂ fun x hx => ho x (List.mem_cons_of_mem _ hx)
    refine ⟨rfl, fun x hx => ?_⟩
    rcases List.mem_cons.mp hx with rfl | hx
    · exact he
    · exact hes x hx

theorem Indexing.compile_ok : ∀ (i : Indexing) {t t' : ScopeTable} {e : Expr},
    i.compile t = .ok (e, t') → e.Orderly early → t' = t ∧ e.Scoped early t
  | ⟨head, [], _⟩, _, _, _, h, ho => Primary.compile_ok head h ho
  | ⟨head, first :: rest, span⟩, _, _, _, h, ho => by
    obtain ⟨found, t₁, h₁, hk⟩ := bind_ok h
    obtain ⟨bs, t₂, h₂, hk⟩ := bind_ok hk
    obtain ⟨rfl, rfl⟩ := pure_ok hk
    cases ho with
    | index inner all =>
      obtain ⟨rfl, hhead⟩ := Primary.compile_ok head h₁ inner
      obtain ⟨rfl, hbs⟩ := compileBrackets_ok (first :: rest) h₂ all
      exact ⟨rfl, .index hhead hbs⟩

theorem compileBrackets_ok : ∀ (bs : List Bracket) {t t' : ScopeTable}
    {found : List IndexBracket}, compileBrackets bs t = .ok (found, t') →
    (∀ b ∈ found, ∀ e ∈ b.items, e.Orderly early) →
    t' = t ∧ ∀ b ∈ found, ∀ e ∈ b.items, e.Scoped early t
  | [], _, _, _, h, _ => by
    obtain ⟨rfl, rfl⟩ := pure_ok h
    exact ⟨rfl, nofun⟩
  | ⟨items, span⟩ :: bs, _, _, _, h, ho => by
    obtain ⟨es, t₁, h₁, hk⟩ := bind_ok h
    obtain ⟨found, t₂, h₂, hk⟩ := bind_ok hk
    obtain ⟨rfl, rfl⟩ := pure_ok hk
    obtain ⟨rfl, hes⟩ := compileCompounds_ok items h₁ (ho ⟨es, span⟩ List.mem_cons_self)
    obtain ⟨rfl, hfound⟩ := compileBrackets_ok bs h₂
      fun b hb => ho b (List.mem_cons_of_mem _ hb)
    refine ⟨rfl, fun b hb => ?_⟩
    rcases List.mem_cons.mp hb with rfl | hb
    · exact hes
    · exact hfound b hb

/-- **Primaries**, case by case: a variable may be read, since the compiler has asked. -/
theorem Primary.compile_ok : ∀ (p : Primary) {t t' : ScopeTable} {e : Expr},
    p.compile t = .ok (e, t') → e.Orderly early → t' = t ∧ e.Scoped early t
  | .bareword text span, _, _, _, h, _ => by
    obtain ⟨rfl, rfl⟩ := pure_ok h
    exact ⟨rfl, .literal⟩
  | .singleQuoted text span, _, _, _, h, _ => by
    obtain ⟨rfl, rfl⟩ := pure_ok h
    exact ⟨rfl, .literal⟩
  | .doubleQuoted text span, _, _, _, h, _ => by
    obtain ⟨rfl, rfl⟩ := pure_ok h
    exact ⟨rfl, .literal⟩
  | .reference text span, t, _, _, h, _ => by
    obtain ⟨t₁, t₂, h₁, hk⟩ := bind_ok h
    obtain ⟨rfl, rfl⟩ := get_ok h₁
    obtain ⟨hc, hk⟩ := when_ok hk
    obtain ⟨rfl, rfl⟩ := pure_ok hk
    exact ⟨rfl, .reference text hc⟩
  | .capture chunk span, _, _, _, h, ho => by
    obtain ⟨op, t₁, h₁, hk⟩ := bind_ok h
    obtain ⟨rfl, rfl⟩ := pure_ok hk
    cases ho with
    | capture inner quiet =>
      obtain ⟨hop, hquiet⟩ := Chunk.compile_ok chunk h₁ inner
      exact ⟨hquiet quiet, .capture quiet hop⟩
  | .list items span, _, _, _, h, ho => by
    obtain ⟨es, t₁, h₁, hk⟩ := bind_ok h
    obtain ⟨rfl, rfl⟩ := pure_ok hk
    cases ho with
    | list all =>
      obtain ⟨rfl, hes⟩ := compileCompounds_ok items h₁ all
      exact ⟨rfl, .list hes⟩
  | .map pairs span, _, _, _, h, ho => by
    obtain ⟨es, t₁, h₁, hk⟩ := bind_ok h
    obtain ⟨rfl, rfl⟩ := pure_ok hk
    cases ho with
    | map keys values =>
      obtain ⟨rfl, hkeys, hvalues⟩ := compilePairs_ok pairs h₁ keys values
      exact ⟨rfl, .map hkeys hvalues⟩
  | .lambda params body span, _, _, _, h, ho => by
    obtain ⟨l, t₁, h₁, hk⟩ := bind_ok h
    obtain ⟨rfl, rfl⟩ := pure_ok hk
    cases ho with
    | lambda inner =>
      obtain ⟨rfl, hl⟩ := closeOver_ok (fun hb => Chunk.compile_ok body hb) h₁ inner
      exact ⟨rfl, .lambda hl⟩
  | .braced items span, _, _, _, h, ho => by
    obtain ⟨es, t₁, h₁, hk⟩ := bind_ok h
    obtain ⟨rfl, rfl⟩ := pure_ok hk
    cases ho with
    | sequence all =>
      obtain ⟨rfl, hes⟩ := compileCompounds_ok items h₁ all
      exact ⟨rfl, .sequence hes⟩

theorem compilePairs_ok : ∀ (ps : List MapPair) {t t' : ScopeTable} {found : List (Expr × Expr)},
    compilePairs ps t = .ok (found, t') → (∀ p ∈ found, p.1.Orderly early) →
    (∀ p ∈ found, p.2.Orderly early) →
    t' = t ∧ (∀ p ∈ found, p.1.Scoped early t) ∧ ∀ p ∈ found, p.2.Scoped early t
  | [], _, _, _, h, _, _ => by
    obtain ⟨rfl, rfl⟩ := pure_ok h
    exact ⟨rfl, nofun, nofun⟩
  | ⟨key, value, _⟩ :: ps, _, _, _, h, hkeys, hvalues => by
    obtain ⟨k, t₁, h₁, hk⟩ := bind_ok h
    obtain ⟨v, t₂, h₂, hk⟩ := bind_ok hk
    obtain ⟨found, t₃, h₃, hk⟩ := bind_ok hk
    obtain ⟨rfl, rfl⟩ := pure_ok hk
    obtain ⟨rfl, hsk⟩ := Compound.compile_ok key h₁ (hkeys (k, v) List.mem_cons_self)
    obtain ⟨rfl, hsv⟩ := Compound.compile_ok value h₂ (hvalues (k, v) List.mem_cons_self)
    obtain ⟨rfl, hks, hvs⟩ := compilePairs_ok ps h₃
      (fun p hp => hkeys p (List.mem_cons_of_mem _ hp))
      fun p hp => hvalues p (List.mem_cons_of_mem _ hp)
    refine ⟨rfl, fun p hp => ?_, fun p hp => ?_⟩
    · rcases List.mem_cons.mp hp with rfl | hp
      · exact hsk
      · exact hks p hp
    · rcases List.mem_cons.mp hp with rfl | hp
      · exact hsv
      · exact hvs p hp

end

/-- **A compiled unit that is orderly is scoped**, from the names that its session knows. -/
theorem compileUnit_scoped {builtins globals : List String} {unit : Chunk} {op : Operation}
    (h : compileUnit builtins globals unit = .ok op) (orderly : op.Orderly early) :
    ∃ t', op.Scoped early (ScopeTable.start builtins globals) t' := by
  unfold compileUnit at h
  cases hc : unit.compile (ScopeTable.start builtins globals) with
  | error e =>
    rw [hc] at h
    exact nomatch h
  | ok made =>
    obtain ⟨op', t'⟩ := made
    rw [hc] at h
    cases h
    exact ⟨t', (Chunk.compile_ok unit hc orderly).1⟩

end ValueShell
