/-
  The scope table is only a check.

  Which names are known decides whether code compiles.  It has no part in what the code compiles to, and a name more
  is never in the way: code that compiles in one table compiles to the same in any table that has at least
  the names of the first, place by place (`ScopeTable.Within`, `Chunk.compile_steady`).  Nothing in the compiler asks
  for a name to be absent, and every change that it makes to a table keeps one table within the other.

  Any two tables are within a third (`ScopeTable.exists_join`).  So code that two sessions accept is the same
  operation in both, and may be compiled as a part of a longer unit, where the names are known that the part
  before it declares, or after that part has run and bound them (`compileUnit_append`).

  `Steady x` says it of one step of compilation.  A table that was looked at may differ from then on, so
  the rule for looking needs two continuations, and the notion underneath is the binary `Persists`.  The
  special forms hand on the arguments that are left; `Persists` carries what is known of those.
-/
import ValueShell.Proofs.Scoped

namespace ValueShell

/-! ## Tables with more names -/

/-- **Scope by scope, from the innermost on**, the second list has the names of the first; it may go on further. -/
inductive NamesWithin : List (List String) → List (List String) → Prop
  | none {scopes : List (List String)} : NamesWithin [] scopes
  | scope {names names' : List String} {outer outer' : List (List String)} (here : names ⊆ names')
      (above : NamesWithin outer outer') : NamesWithin (names :: outer) (names' :: outer')

namespace NamesWithin

variable {scopes scopes' : List (List String)}

/-- Scopes are within themselves. -/
theorem refl : ∀ scopes, NamesWithin scopes scopes
  | [] => .none
  | _ :: outer => .scope (List.Subset.refl _) (refl outer)

/-- The innermost scope is within the other. -/
theorem innermost (h : NamesWithin scopes scopes') : scopes.headD [] ⊆ scopes'.headD [] := by
  cases h with
  | none => exact List.nil_subset _
  | scope here _ => exact here

/-- So are the scopes around it. -/
theorem tail (h : NamesWithin scopes scopes') : NamesWithin scopes.tail scopes'.tail := by
  cases h with
  | none => exact .none
  | scope _ above => exact above

/-- A name that some scope has, the scope at its place has. -/
theorem any_contains (h : NamesWithin scopes scopes') {name : String} (known : scopes.any (·.contains name) = true) :
    scopes'.any (·.contains name) = true := by
  induction h with
  | none => exact nomatch known
  | scope here _ ih =>
    rw [List.any_cons, Bool.or_eq_true, List.contains_iff_mem] at known ⊢
    exact known.imp (fun mem => here mem) ih

/-- Any two lists of scopes are within a third. -/
theorem exists_join : ∀ scopes scopes', ∃ both, NamesWithin scopes both ∧ NamesWithin scopes' both
  | [], scopes' => ⟨scopes', .none, refl scopes'⟩
  | scopes, [] => ⟨scopes, refl scopes, .none⟩
  | names :: outer, names' :: outer' => by
    obtain ⟨both, left, right⟩ := exists_join outer outer'
    exact ⟨(names ++ names') :: both, .scope (List.subset_append_left ..) left,
      .scope (List.subset_append_right ..) right⟩

end NamesWithin

/-- **The second table has at least the names of the first**: of the builtins, and of every scope. -/
structure ScopeTable.Within (t u : ScopeTable) : Prop where
  builtins : t.builtins ⊆ u.builtins
  scopes : NamesWithin t.scopes u.scopes

namespace ScopeTable.Within

variable {t u : ScopeTable}

/-! What can be read stays readable. -/

theorem innermost (h : t.Within u) : t.innermost ⊆ u.innermost := h.scopes.innermost

/-- What is visible stays visible where more is known. -/
theorem visible (h : t.Within u) {name : String} (known : t.visible name = true) : u.visible name = true := by
  rw [ScopeTable.visible, Bool.or_eq_true, List.contains_iff_mem] at known ⊢
  exact known.imp h.scopes.any_contains fun mem => h.builtins mem

/-- So do namespaces. -/
theorem namespaceVisible (h : t.Within u) {ns : String} (known : t.namespaceVisible ns = true) :
    u.namespaceVisible ns = true := by
  rw [ScopeTable.namespaceVisible, Bool.or_eq_true] at known ⊢
  refine known.imp h.visible fun outer => ?_
  cases cut : splitAtFirst ':' ns.toList with
  | none =>
    rw [cut] at outer
    exact nomatch outer
  | some parts =>
    rw [cut] at outer
    exact h.visible outer

/-- What may be read may be read where more is known. -/
theorem canRead (h : t.Within u) {ns name : String} (known : t.canRead ns name = true) : u.canRead ns name = true := by
  unfold ScopeTable.canRead at known ⊢
  split at known
  · exact h.visible known
  · exact List.contains_iff_mem.mpr (h.innermost (List.contains_iff_mem.mp known))
  · exact h.scopes.tail.any_contains known
  · exact List.contains_iff_mem.mpr (h.builtins (List.contains_iff_mem.mp known))
  · rfl
  · rfl
  · exact h.namespaceVisible known

/-! What changes a table keeps it within the other. -/

/-- A declaration keeps one table within the other. -/
theorem declare (h : t.Within u) (name : String) : (t.declare name).Within (u.declare name) := by
  obtain ⟨scopes, builtins⟩ := t
  obtain ⟨scopes', builtins'⟩ := u
  refine ⟨?_, ?_⟩
  · cases scopes <;> cases scopes' <;> exact h.builtins
  · cases h.scopes with
    | none => exact .none
    | scope here above =>
      refine .scope (fun x mem => ?_) above
      rw [List.mem_insert_iff] at mem ⊢
      exact mem.imp_right fun mem => here mem

/-- So does the end of one. -/
theorem undeclare (h : t.Within u) (name : String) : (t.undeclare name).Within (u.undeclare name) := by
  obtain ⟨scopes, builtins⟩ := t
  obtain ⟨scopes', builtins'⟩ := u
  refine ⟨?_, ?_⟩
  · cases scopes <;> cases scopes' <;> exact h.builtins
  · cases h.scopes with
    | none => exact .none
    | scope here above =>
      refine .scope (fun x mem => ?_) above
      rw [List.mem_filter] at mem ⊢
      exact ⟨here mem.1, mem.2⟩

/-- So does a scope that is entered, -/
theorem enter (h : t.Within u) (names : List String) : (t.enter names).Within (u.enter names) :=
  ⟨h.builtins, .scope (List.Subset.refl _) h.scopes⟩

/-- or left. -/
theorem leave (h : t.Within u) : t.leave.Within u.leave := ⟨h.builtins, h.scopes.tail⟩

/-- What can be assigned to stays assignable. -/
theorem assign? (h : t.Within u) {ns name : String} {t' : ScopeTable} (assigned : t.assign? ns name = some t') :
    ∃ u', u.assign? ns name = some u' ∧ t'.Within u' := by
  unfold ScopeTable.assign? at assigned ⊢
  split at assigned
  · next here =>
    cases assigned
    exact ⟨_, if_pos here, h.declare name⟩
  · next elsewhere =>
    split at assigned
    · next known =>
      cases assigned
      exact ⟨u, by rw [if_neg elsewhere, if_pos (h.canRead known)], h⟩
    · exact nomatch assigned

end ScopeTable.Within

/-- Any two tables are within a third. -/
theorem ScopeTable.exists_join (t u : ScopeTable) : ∃ both, t.Within both ∧ u.Within both := by
  obtain ⟨scopes, left, right⟩ := NamesWithin.exists_join t.scopes u.scopes
  exact ⟨⟨scopes, t.builtins ++ u.builtins⟩, ⟨List.subset_append_left .., left⟩, ⟨List.subset_append_right .., right⟩⟩

namespace Compile

variable {α β : Type} {P : α → Prop} {Q : β → Prop}

/-! ## Steps that make the same -/

/-- **What the first step makes in a table, the second makes in any table with at least the names**, and it leaves
such a table behind; and what is made has the property. -/
def Persists (P : α → Prop) (x y : Compile α) : Prop :=
  ∀ ⦃t u a t'⦄, t.Within u → x t = .ok (a, t') → P a ∧ ∃ u', y u = .ok (a, u') ∧ t'.Within u'

/-- More names are not in the way of a step. -/
abbrev Steady (x : Compile α) : Prop := Persists (fun _ => True) x x

/-- What a steady step makes does not depend on the table: it makes the same in a table that both are within. -/
theorem Steady.unique {x : Compile α} (h : Steady x) {t u t' u' : ScopeTable} {a b : α} (left : x t = .ok (a, t'))
    (right : x u = .ok (b, u')) : a = b := by
  obtain ⟨both, below, below'⟩ := t.exists_join u
  obtain ⟨-, _, made, -⟩ := h below left
  obtain ⟨-, _, made', -⟩ := h below' right
  cases made.symm.trans made'
  rfl

/-- What is returned is the same. -/
theorem persists_pure {a : α} (h : P a) : Persists P (pure a) (pure a) := by
  intro t u b t' within made
  obtain ⟨rfl, rfl⟩ := pure_ok made
  exact ⟨h, u, rfl, within⟩

theorem steady_pure (a : α) : Steady (pure a) := persists_pure trivial

/-- How a compilation goes on after a step that succeeded. -/
theorem bind_of_ok {x : Compile α} {k : α → Compile β} {t t' : ScopeTable} {a : α} (h : x t = .ok (a, t')) :
    (x >>= k) t = k a t' := by
  show (x t).bind _ = _
  rw [h]
  rfl

/-- **One step after the other.** -/
theorem persists_bind {x y : Compile α} {k l : α → Compile β} (h : Persists P x y)
    (next : ∀ a, P a → Persists Q (k a) (l a)) : Persists Q (x >>= k) (y >>= l) := by
  intro t u b t' within made
  obtain ⟨a, t₁, first, later⟩ := bind_ok made
  obtain ⟨ha, u₁, first', within⟩ := h within first
  obtain ⟨hb, u', later', within⟩ := next a ha within later
  exact ⟨hb, u', (bind_of_ok first').trans later', within⟩

/-- The common case: nothing but the result is handed on. -/
theorem persists_then {x : Compile α} {k l : α → Compile β} (h : Steady x)
    (next : ∀ a, Persists Q (k a) (l a)) : Persists Q (x >>= k) (x >>= l) :=
  persists_bind h fun a _ => next a

/-- A step that always fails needs no second one. -/
theorem persists_fails {problem : CompileProblem} {span : Span} {y : Compile α} :
    Persists P (failAt problem span) y := fun _ _ _ _ _ made => (failAt_ok made).elim

/-- To look at the table. -/
theorem persists_get {k l : ScopeTable → Compile α} (next : ∀ t u, t.Within u → Persists P (k t) (l u)) :
    Persists P (get >>= k) (get >>= l) := fun _ _ _ _ within made => next _ _ within within made

/-- To change the table. -/
theorem persists_modify {change : ScopeTable → ScopeTable} (keeps : ∀ {t u}, t.Within u → (change t).Within (change u))
    {k l : PUnit → Compile β} (next : Persists Q (k ⟨⟩) (l ⟨⟩)) :
    Persists Q (modify change >>= k) (modify change >>= l) := fun _ _ _ _ within made => next (keeps within) made

/-- To put a table in the place of another. -/
theorem persists_set {t u : ScopeTable} (within : t.Within u) {k l : PUnit → Compile β}
    (next : Persists Q (k ⟨⟩) (l ⟨⟩)) : Persists Q (set t >>= k) (set u >>= l) :=
  fun _ _ _ _ _ made => next within made

/-- A check of the table, which fails where it is not met. -/
theorem persists_check {p q : Prop} [Decidable p] [Decidable q] {x y : Compile α} (known : p → q)
    (h : Persists P x y) {problem : CompileProblem} {span : Span} :
    Persists P (if p then x else failAt problem span) (if q then y else failAt problem span) := by
  split
  · next here =>
    rw [if_pos (known here)]
    exact h
  · exact persists_fails

/-! ## Lambdas and targets -/

/-- A signature does not depend on the tables. -/
theorem signature_steady (params : List Param) : Steady (signature params) := by
  induction params with
  | nil => exact steady_pure _
  | cons p ps ih =>
    unfold signature
    split
    · split
      · exact steady_pure _
      · exact persists_fails
    · exact persists_then ih fun _ => steady_pure _

/-- A lambda enters a scope and leaves it. -/
theorem closeOver_steady (params : List Param) {body : Compile Operation} (h : Steady body)
    (span : Span) : Steady (closeOver params body span) :=
  persists_then (signature_steady params) fun _ => persists_modify (·.enter _) <| persists_then h fun _ =>
    persists_modify (·.leave) <| steady_pure _

/-- A target asks whether its base may be read. -/
theorem targetOf_steady (i : Indexing) {brackets : Compile (List IndexBracket)}
    (h : Steady brackets) : Steady (targetOf i brackets) := by
  unfold targetOf
  split
  · exact persists_fails
  · dsimp only
    split
    · exact persists_fails
    · split
      · refine persists_get fun t u within => ?_
        split
        · exact persists_fails
        · next table assigned =>
          obtain ⟨table', assigned', within⟩ := within.assign? assigned
          rw [assigned']
          exact persists_set within <| steady_pure _
      · split
        · exact persists_fails
        · exact persists_get fun t u within =>
            persists_check within.canRead (persists_then h fun _ => steady_pure _)

end Compile

open Compile

/-! ## Special forms -/

/-- An argument that is compiled the same way whatever names are known. -/
structure Argument.Steady (a : Argument) : Prop where
  expr : Compile.Steady a.expr
  lambda : ∀ x ∈ a.lambda?, Compile.Steady x
  targets : ∀ x ∈ a.target?, Compile.Steady x.targets
  brackets : ∀ x ∈ a.target?, Compile.Steady x.brackets

/-- Arguments that are. -/
abbrev SteadyArguments (args : List Argument) : Prop := ∀ a ∈ args, a.Steady

namespace SpecialForm

variable {args : List Argument}

theorem steady_tail {a : Argument} {rest : List Argument} (h : SteadyArguments (a :: rest)) :
    SteadyArguments rest := fun b hb => h b (List.mem_cons_of_mem _ hb)

theorem steady_head {a : Argument} {rest : List Argument} (h : SteadyArguments (a :: rest)) :
    a.Steady := h a List.mem_cons_self

/-- Nothing is left over, in both tables. -/
theorem nothingElse_steady (args : List Argument) : Compile.Steady (nothingElse args) := by
  cases args with
  | nil => exact steady_pure _
  | cons => exact persists_fails

theorem body_steady {a : Argument} (h : a.Steady) : Compile.Steady a.body := by
  unfold Argument.body
  split
  · next x hx => exact h.lambda x hx
  · exact persists_fails

/-- A step that hands on the arguments that are left. -/
abbrev HandsOn {α : Type} (x : Compile (α × List Argument)) : Prop :=
  Persists (fun r => SteadyArguments r.2) x x

/-- The next argument is steady, and so are those after it. -/
theorem persists_next (h : SteadyArguments args) (stop : Nat) :
    Persists (fun r => r.1.Steady ∧ SteadyArguments r.2) (next stop args) (next stop args) := by
  cases args with
  | nil => exact persists_fails
  | cons => exact persists_pure ⟨steady_head h, steady_tail h⟩

theorem handsOn_nextBody (h : SteadyArguments args) (stop : Nat) : HandsOn (nextBody stop args) :=
  persists_bind (persists_next h stop) fun _ found => persists_then (body_steady found.1) fun _ =>
    persists_pure found.2

theorem handsOn_bodyAfter (h : SteadyArguments args) (word : String) (stop : Nat) :
    HandsOn (bodyAfter word stop args) := by
  cases args with
  | nil => exact persists_pure h
  | cons a rest =>
    rw [bodyAfter]
    split
    · exact persists_bind (handsOn_nextBody (steady_tail h) stop) fun _ left => persists_pure left
    · exact persists_pure h

/-- Arguments are compiled one after the other. -/
theorem exprs_steady (h : SteadyArguments args) : Compile.Steady (exprs args) := by
  induction args with
  | nil => exact steady_pure _
  | cons a rest ih =>
    exact persists_then (steady_head h).expr fun _ => persists_then (ih (steady_tail h)) fun _ =>
      steady_pure _

/-- By induction on the number of arguments, since a branch takes three of them. -/
theorem handsOn_branches (stop : Nat) : ∀ {args : List Argument}, SteadyArguments args →
    HandsOn (branches stop args)
  | [], _ => persists_fails
  | [first], h => persists_then (steady_head h).expr fun _ => persists_fails
  | [first, second], h => persists_then (steady_head h).expr fun _ =>
      persists_then (body_steady (steady_head (steady_tail h))) fun _ => persists_pure nofun
  | first :: second :: word :: rest, h => by
    refine persists_then (steady_head h).expr fun _ =>
      persists_then (body_steady (steady_head (steady_tail h))) fun _ => ?_
    have others := steady_tail (steady_tail h)
    dsimp only
    split
    · exact persists_bind (handsOn_branches stop (steady_tail others)) fun _ left => persists_pure left
    · exact persists_pure others

variable (h : SteadyArguments args) (span : Span)
include h

/-- **`if`.** -/
theorem compileIf_steady : Compile.Steady (compileIf span args) :=
  persists_bind (handsOn_branches _ h) fun _ left => persists_bind (handsOn_bodyAfter left _ _) fun _ _ =>
    persists_then (nothingElse_steady _) fun _ => steady_pure _

/-- **`while`.** -/
theorem compileWhile_steady : Compile.Steady (compileWhile span args) :=
  persists_bind (persists_next h _) fun _ found => persists_then found.1.expr fun _ =>
    persists_bind (handsOn_nextBody found.2 _) fun _ _ =>
      persists_then (nothingElse_steady _) fun _ => steady_pure _

/-- **`for`.** -/
theorem compileFor_steady : Compile.Steady (compileFor span args) := by
  refine persists_bind (persists_next h _) fun ⟨first, rest⟩ ⟨hfirst, hrest⟩ => ?_
  dsimp only
  split
  · exact persists_fails
  · next argument ha =>
    refine persists_then (hfirst.targets argument ha) fun target => ?_
    split
    · exact persists_fails
    · split
      · exact persists_fails
      · split
        · exact persists_fails
        · exact persists_bind (persists_next (steady_tail hrest) _) fun _ found =>
            persists_then found.1.expr fun _ => persists_bind (handsOn_nextBody found.2 _) fun _ left =>
              persists_bind (handsOn_bodyAfter left _ _) fun _ _ =>
                persists_then (nothingElse_steady _) fun _ => steady_pure _

omit span in
theorem handsOn_exceptTarget : HandsOn (exceptTarget args) := by
  cases args with
  | nil => exact persists_pure h
  | cons a rest =>
    rw [exceptTarget]
    split
    · exact persists_pure h
    · next argument ha =>
      split
      · exact persists_pure h
      · refine persists_then ((steady_head h).targets argument ha) fun target => ?_
        split
        · exact persists_fails
        · exact persists_pure (steady_tail h)

omit span in
theorem handsOn_exceptPart (stop : Nat) : HandsOn (exceptPart stop args) := by
  cases args with
  | nil => exact persists_pure h
  | cons word rest =>
    rw [exceptPart]
    split
    · exact persists_bind (handsOn_exceptTarget (steady_tail h)) fun _ left =>
        persists_bind (handsOn_nextBody left _) fun _ left => persists_pure left
    · exact persists_pure h

/-- **`try`.** -/
theorem compileTry_steady : Compile.Steady (compileTry span args) :=
  persists_bind (handsOn_nextBody h _) fun _ left => persists_bind (handsOn_exceptPart left _) fun _ left =>
    persists_bind (handsOn_bodyAfter left _ _) fun _ left =>
      persists_bind (handsOn_bodyAfter left _ _) fun _ _ =>
        persists_then (nothingElse_steady _) fun _ => steady_pure _

/-- **`fn`.** -/
theorem compileFn_steady : Compile.Steady (compileFn span args) := by
  refine persists_bind (persists_next h _) fun ⟨first, rest⟩ ⟨_, hrest⟩ => ?_
  dsimp only
  split
  · exact persists_fails
  · exact persists_modify (·.declare _) <| persists_bind (handsOn_nextBody hrest _) fun _ _ =>
      persists_then (nothingElse_steady _) fun _ => steady_pure _

omit h in
/-- **`use`.** -/
theorem compileUse_steady (headStop : Nat) (args : List Argument) :
    Compile.Steady (compileUse headStop span args) := by
  match args with
  | [] => exact persists_fails
  | [only] =>
    rw [compileUse]
    split
    · exact persists_fails
    · exact persists_modify (·.declare _) <| steady_pure _
  | _ :: _ :: _ => exact persists_fails

omit h span in
/-- A deletion asks whether the name is in the innermost scope: there both tables have the same answer or one
fails. -/
theorem deletion_steady {a : Argument} (ha : a.Steady) : Compile.Steady (deletion a) := by
  unfold deletion
  split
  · exact persists_fails
  · next argument hargument =>
    split
    · exact persists_fails
    · dsimp only
      split
      · exact persists_fails
      · split
        · split
          · refine persists_get fun t u within => persists_check (fun known => ?_) ?_
            · exact List.contains_iff_mem.mpr (within.innermost (List.contains_iff_mem.mp known))
            · exact persists_modify (·.undeclare _) <| steady_pure _
          · split
            · exact steady_pure _
            · exact persists_fails
        · exact persists_get fun t u within => persists_check within.canRead <|
            persists_then (ha.brackets argument hargument) fun _ => steady_pure _
    · exact persists_fails

omit span in
theorem deletions_steady : Compile.Steady (deletions args) := by
  induction args with
  | nil => exact steady_pure _
  | cons a rest ih =>
    exact persists_then (deletion_steady (steady_head h)) fun _ =>
      persists_then (ih (steady_tail h)) fun _ => steady_pure _

/-- **Every special form** is compiled the same way if its arguments are. -/
theorem compile_steady (form : SpecialForm) (headStop : Nat) :
    Compile.Steady (form.compile headStop span args) := by
  cases form with
  | ifForm => exact compileIf_steady h span
  | whileForm => exact compileWhile_steady h span
  | forForm => exact compileFor_steady h span
  | tryForm => exact compileTry_steady h span
  | andForm => exact persists_then (exprs_steady h) fun _ => steady_pure _
  | orForm => exact persists_then (exprs_steady h) fun _ => steady_pure _
  | fnForm => exact compileFn_steady h span
  | useForm => exact compileUse_steady span headStop args
  | delForm => exact persists_then (deletions_steady h) fun _ => steady_pure _

end SpecialForm

/-! ## Syntax trees -/

mutual

/-- **A chunk.** -/
theorem Chunk.compile_steady : ∀ c : Chunk, Steady c.compile
  | ⟨pipelines, _⟩ => persists_then (compilePipelines_steady pipelines) fun _ => steady_pure _

theorem compilePipelines_steady : ∀ ps : List Pipeline, Steady (compilePipelines ps)
  | [] => steady_pure _
  | p :: ps => persists_then p.compile_steady fun _ => persists_then (compilePipelines_steady ps) fun _ =>
      steady_pure _

theorem Pipeline.compile_steady : ∀ p : Pipeline, Steady p.compile
  | ⟨forms, _⟩ => persists_then (compileForms_steady forms) fun _ => steady_pure _

theorem compileForms_steady : ∀ fs : List Form, Steady (compileForms fs)
  | [] => steady_pure _
  | f :: fs => persists_then f.compile_steady fun _ => persists_then (compileForms_steady fs) fun _ =>
      steady_pure _

/-- A form: assignments, a special form, or a command. -/
theorem Form.compile_steady : ∀ f : Form, Steady f.compile
  | .assign assignments _ => persists_then (compileAssignments_steady assignments) fun _ => steady_pure _
  | .command head args span => by
    unfold Form.compile
    split
    · split
      · exact SpecialForm.compile_steady (arguments_steady args) span _ _
      · exact persists_then (compileCompounds_steady args) fun _ => steady_pure _
    · exact persists_then head.compile_steady fun _ => persists_then (compileCompounds_steady args) fun _ =>
        steady_pure _

theorem compileAssignments_steady : ∀ as : List Assignment, Steady (compileAssignments as)
  | [] => steady_pure _
  | a :: as => persists_then a.compile_steady fun _ => persists_then (compileAssignments_steady as) fun _ =>
      steady_pure _

/-- An assignment. -/
theorem Assignment.compile_steady : ∀ a : Assignment, Steady a.compile
  | ⟨left, right, _⟩ => persists_then (compileCompounds_steady right) fun _ =>
      persists_then left.compileTargets_steady fun _ => steady_pure _

theorem Indexing.compileTargets_steady : ∀ i : Indexing, Steady i.compileTargets
  | ⟨head, brackets, span⟩ => by
    have target := targetOf_steady ⟨head, brackets, span⟩ (compileBrackets_steady brackets)
    unfold Indexing.compileTargets
    split
    · next items _ _ _ heq =>
      cases heq
      split
      · exact persists_fails
      · split
        · exact persists_fails
        · exact persists_then (compileTargetItems_steady items) fun _ => steady_pure _
    · next heq =>
      cases heq
      exact persists_then target fun _ => steady_pure _

theorem compileTargetItems_steady : ∀ items : List Compound, Steady (compileTargetItems items)
  | [] => steady_pure _
  | ⟨[⟨head, brackets, span⟩], _⟩ :: items => by
    refine persists_then (targetOf_steady ⟨head, brackets, span⟩ (compileBrackets_steady brackets))
      fun _ => ?_
    dsimp only
    split
    · split
      · exact steady_pure _
      · exact persists_fails
    · exact persists_then (compileTargetItems_steady items) fun _ => steady_pure _
  | ⟨[], _⟩ :: _ => persists_fails
  | ⟨⟨_, _, _⟩ :: _ :: _, _⟩ :: _ => persists_fails

theorem arguments_steady : ∀ cs : List Compound, SteadyArguments (arguments cs)
  | [], _, ha => nomatch ha
  | c :: cs, a, ha => by
    rcases List.mem_cons.mp ha with rfl | ha
    · exact ⟨c.compile_steady, c.compileLambda?_steady, fun x hx => (c.targetArgument?_steady x hx).1,
        fun x hx => (c.targetArgument?_steady x hx).2⟩
    · exact arguments_steady cs a ha

theorem Compound.compileLambda?_steady : ∀ (c : Compound), ∀ x ∈ c.compileLambda?, Steady x
  | ⟨[⟨.lambda params body _, [], _⟩], span⟩, x, hx => by
    cases hx
    exact closeOver_steady params body.compile_steady span

theorem Compound.targetArgument?_steady : ∀ (c : Compound), ∀ x ∈ c.targetArgument?,
    Steady x.targets ∧ Steady x.brackets
  | ⟨[⟨head, brackets, span⟩], _⟩, x, hx => by
    cases hx
    exact ⟨Indexing.compileTargets_steady ⟨head, brackets, span⟩, compileBrackets_steady brackets⟩

theorem compileCompounds_steady : ∀ cs : List Compound, Steady (compileCompounds cs)
  | [] => steady_pure _
  | c :: cs => persists_then c.compile_steady fun _ => persists_then (compileCompounds_steady cs) fun _ =>
      steady_pure _

/-- A word. -/
theorem Compound.compile_steady : ∀ c : Compound, Steady c.compile
  | ⟨[], _⟩ => steady_pure _
  | ⟨[only], _⟩ => only.compile_steady
  | ⟨first :: second :: rest, _⟩ =>
    persists_then (compileIndexings_steady (first :: second :: rest)) fun _ => steady_pure _

theorem compileIndexings_steady : ∀ is : List Indexing, Steady (compileIndexings is)
  | [] => steady_pure _
  | i :: is => persists_then i.compile_steady fun _ => persists_then (compileIndexings_steady is) fun _ =>
      steady_pure _

theorem Indexing.compile_steady : ∀ i : Indexing, Steady i.compile
  | ⟨head, [], _⟩ => head.compile_steady
  | ⟨head, bracket :: brackets, _⟩ => persists_then head.compile_steady fun _ =>
      persists_then (compileBrackets_steady (bracket :: brackets)) fun _ => steady_pure _

theorem compileBrackets_steady : ∀ bs : List Bracket, Steady (compileBrackets bs)
  | [] => steady_pure _
  | ⟨items, _⟩ :: bs => persists_then (compileCompounds_steady items) fun _ =>
      persists_then (compileBrackets_steady bs) fun _ => steady_pure _

/-- **Primaries**, case by case: only a variable asks for a name. -/
theorem Primary.compile_steady : ∀ p : Primary, Steady p.compile
  | .bareword .. | .singleQuoted .. | .doubleQuoted .. => steady_pure _
  | .reference .. => persists_get fun _ _ within => persists_check within.canRead (steady_pure _)
  | .capture chunk _ => persists_then chunk.compile_steady fun _ => steady_pure _
  | .list items _ => persists_then (compileCompounds_steady items) fun _ => steady_pure _
  | .map pairs _ => persists_then (compilePairs_steady pairs) fun _ => steady_pure _
  | .lambda params body span =>
    persists_then (closeOver_steady params body.compile_steady span) fun _ => steady_pure _
  | .braced items _ => persists_then (compileCompounds_steady items) fun _ => steady_pure _

theorem compilePairs_steady : ∀ ps : List MapPair, Steady (compilePairs ps)
  | [] => steady_pure _
  | ⟨key, value, _⟩ :: ps => persists_then key.compile_steady fun _ =>
      persists_then value.compile_steady fun _ => persists_then (compilePairs_steady ps) fun _ =>
        steady_pure _

end

/-! ## Units -/

/-- A unit starts with its builtins and globals. -/
theorem compile_of_unit {builtins globals : List String} {unit : Chunk} {op : Operation}
    (h : compileUnit builtins globals unit = .ok op) :
    ∃ t', unit.compile (ScopeTable.start builtins globals) = .ok (op, t') := by
  unfold compileUnit at h
  cases hc : unit.compile (ScopeTable.start builtins globals) with
  | error e =>
    rw [hc] at h
    exact nomatch h
  | ok r =>
    rw [hc] at h
    cases h
    exact ⟨r.2, rfl⟩

end ValueShell
