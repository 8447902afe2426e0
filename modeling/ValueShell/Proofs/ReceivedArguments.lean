/-
  What a body reads under the names of its parameters.

  The parameters are bound one after the other in a scope made for the call, then the rest parameter, and then
  `args`.  Binding a name again takes the place of the variable that it had; so each name has what was
  bound last under it.  This is the one thing to prove, by induction on the parameters (`bindEach_holds`).

  A name is bound as it is written, and read as a reference, which splits qualifiers off it.  The two agree on a
  name that has no colon, except at its end, and no `@` in front (`Reference.ofText_whole`).  So a parameter
  receives its argument unless it is called `args`, or has the name of a later one, or of a variable elsewhere
  (`parameters_received`); and in these cases it does not (`arguments_out_of_reach`).
-/
import ValueShell.Proofs.DefinedFunctions
import ValueShell.Proofs.ScopedCompilation

namespace ValueShell

open Eval Compile

/-! ## What a scope holds -/

namespace Store

/-- The scope binds the name to a variable with this value. -/
def Holds (s : Store) (scope : ScopeId) (name : String) (v : Value) : Prop :=
  ∃ c cell, s.find? scope name = some c ∧ s.cell? c = some cell ∧ cell.value = v

variable {s s' : Store} {scope : ScopeId} {name other : String} {u v : Value} {c : CellId} {cell : Cell}

theorem Holds.read (h : s.Holds scope name v) : ∃ c, s.find? scope name = some c ∧ s.read c = v := by
  obtain ⟨c, cell, found, held, rfl⟩ := h
  exact ⟨c, found, by rw [Store.read, held]⟩

/-- The entries of a scope that is there, and its variables, are kept. -/
structure Keeps (s s' : Store) (scope : ScopeId) : Prop where
  known : scope.index < s'.scopes.size
  entries : s'.scope scope = s.scope scope
  cells : ∀ c cell, s.cell? c = some cell → s'.cell? c = some cell

theorem Keeps.newCell (known : scope.index < s.scopes.size) (cell : Cell) : s.Keeps (s.newCell cell).2 scope :=
  ⟨known, rfl, fun _ _ h => cell?_newCell_of_some _ _ h⟩

/-- A fresh variable is apart from what there was. -/
theorem keeps_declare (known : scope.index < s.scopes.size) (name : String) :
    s.Keeps (s.declare name).2 scope ∧ s.cell? (s.declare name).1 = none := by
  have fresh : s.cell? ⟨s.cells.size⟩ = none := Array.getElem?_eq_none (Nat.le_refl _)
  unfold declare
  split
  · exact ⟨.newCell known _, fresh⟩
  · have grown : scope.index < (s.newScope []).2.scopes.size := by
      rw [size_newScope]
      exact Nat.lt_succ_of_lt known
    exact ⟨⟨grown, scope_newScope_of_lt s [] known, fun _ _ h => cell?_newCell_of_some _ _ h⟩, fresh⟩
  · exact ⟨.newCell known _, fresh⟩

/-- A value that is taken is held. -/
theorem cell?_write (there : (s.cell? c).isSome) (taken : s.write c v = .ok s') :
    ∃ cell, cell.value = v ∧ s' = s.setCell c cell := by
  obtain ⟨cell, held⟩ := Option.isSome_iff_exists.mp there
  rw [write, changeCell, held] at taken
  dsimp only at taken
  cases assigned : cell.assign v with
  | error e =>
    rw [assigned] at taken
    cases taken
  | ok cell' =>
    rw [assigned] at taken
    cases taken
    exact ⟨cell', by rw [Cell.assign_eq assigned], rfl⟩

/-- **Binding a parameter.**  Its name has the argument, and the other names have what they had. -/
theorem Holds.declared (known : scope.index < s.scopes.size)
    (taken : (s.declare name).2.write (s.declare name).1 v = .ok s') :
    scope.index < (s'.bind scope name (s.declare name).1).scopes.size ∧
      (s'.bind scope name (s.declare name).1).Holds scope name v ∧
      ∀ other u, other ≠ name → s.Holds scope other u →
        (s'.bind scope name (s.declare name).1).Holds scope other u := by
  obtain ⟨keeps, fresh⟩ := keeps_declare known name
  obtain ⟨cell, rfl, rfl⟩ := cell?_write (s.isSome_cell?_declare name) taken
  have entries : (((s.declare name).2.setCell (s.declare name).1 cell).bind scope name (s.declare name).1).scope
      scope = Table.insert (s.scope scope) name (s.declare name).1 := by
    rw [scope_bind_self ((s.declare name).2.setCell _ cell) name _ keeps.known, scope_setCell, keeps.entries]
  have there := s.isSome_cell?_declare name
  refine ⟨?_, ⟨(s.declare name).1, cell, ?_, ?_, rfl⟩, ?_⟩
  · rw [bind, Array.size_modify]
    exact keeps.known
  · rw [find?, entries, Table.find?_insert_self]
  · show ((s.declare name).2.setCell _ cell).cell? _ = _
    obtain ⟨old, held⟩ := Option.isSome_iff_exists.mp there
    rw [cell?_setCell, if_pos rfl, held]
    rfl
  · rintro other u apart ⟨c, held, found, here, same⟩
    refine ⟨c, held, ?_, ?_, same⟩
    · rw [find?, entries]
      exact (Table.find?_insert_of_ne _ _ apart.symm).trans found
    · show ((s.declare name).2.setCell _ cell).cell? c = _
      rw [cell?_setCell, if_neg, keeps.cells c held here]
      rintro rfl
      cases here.symm.trans fresh

/-- Binding a new variable, whatever the name asks for. -/
theorem Holds.bindNew (known : scope.index < s.scopes.size) (name : String) (cell : Cell) :
    (s.bindNew scope name cell).Holds scope name cell.value ∧
      ∀ other u, other ≠ name → s.Holds scope other u → (s.bindNew scope name cell).Holds scope other u := by
  have held (c : CellId) : (s.bindNew scope name cell).cell? c = (s.newCell cell).2.cell? c := rfl
  have entries : (s.bindNew scope name cell).scope scope = Table.insert (s.scope scope) name ⟨s.cells.size⟩ :=
    scope_bind_self (s.newCell cell).2 _ _ known
  refine ⟨⟨⟨s.cells.size⟩, cell, find?_bindNew known name cell, ?_, rfl⟩, ?_⟩
  · rw [held, cell?_newCell, if_pos rfl]
  · rintro other u apart ⟨c, old, found, here, same⟩
    refine ⟨c, old, ?_, (held c).trans (cell?_newCell_of_some _ _ here), same⟩
    rw [find?, entries]
    exact (Table.find?_insert_of_ne _ _ apart.symm).trans found

end Store

/-! ## Binding the arguments -/

section Binding

variable {scope : ScopeId} {names : List String} {args : List Value} {w w' : World}

theorem bindEach_nil : bindEach scope [] args = pure () := by
  cases args <;> rfl

/-- **Every parameter gets its argument**, unless a later one has its name; by induction on the parameters.  What
other names hold stays. -/
theorem bindEach_holds (known : scope.index < w.store.scopes.size)
    (ran : bindEach scope names args w = (.ok (), w')) :
    scope.index < w'.store.scopes.size ∧
      (∀ name v, name ∉ names → w.store.Holds scope name v → w'.store.Holds scope name v) ∧
      ∀ (i : Nat) (name : String) (v : Value), names[i]? = some name → args[i]? = some v →
        name ∉ names.drop (i + 1) → w'.store.Holds scope name v := by
  induction names generalizing args w with
  | nil =>
    rw [bindEach_nil] at ran
    cases ran
    exact ⟨known, fun _ _ _ h => h, fun _ _ _ h => nomatch h⟩
  | cons first names ih =>
    cases args with
    | nil =>
      cases ran
      exact ⟨known, fun _ _ _ h => h, fun _ _ _ _ h => nomatch h⟩
    | cons arg args =>
      rw [Runner.bindEach_cons, bind_run, Runner.bindOne_run] at ran
      cases taken : (w.store.declare first).2.write (w.store.declare first).1 arg with
      | error e =>
        rw [taken] at ran
        exact nomatch ran
      | ok store =>
        rw [taken] at ran
        obtain ⟨here, bound, kept⟩ := Store.Holds.declared known taken
        obtain ⟨later, others, each⟩ := ih here ran
        refine ⟨later, fun name v new held => ?_, fun i name v named given last => ?_⟩
        · exact others name v (fun mem => new (List.mem_cons_of_mem _ mem))
            (kept name v (fun same => new (same ▸ List.mem_cons_self)) held)
        · cases i with
          | zero =>
            cases named
            cases given
            exact others _ _ last bound
          | succ i => exact each i _ _ named given last

/-- **What the scope of a call holds**, when all is bound. -/
structure Bound (l : Lambda) (args : List Value) (s : Store) (scope : ScopeId) : Prop where
  /-- every fixed parameter has its argument, unless its name is bound again -/
  fixed : ∀ (i : Nat) (name : String) (v : Value), l.params[i]? = some name → args[i]? = some v →
    name ∉ l.params.drop (i + 1) → l.rest ≠ some name → name ≠ "args" → s.Holds scope name v
  /-- the rest parameter has the arguments that are left -/
  rest : ∀ name, l.rest = some name → name ≠ "args" → s.Holds scope name (.list (args.drop l.params.length))
  whole : s.Holds scope "args" (.list args)
  /-- and there are enough arguments -/
  enough : l.params.length ≤ args.length
  all : l.rest = none → l.hasSignature = true → args.length = l.params.length

theorem bindParameters_holds {l : Lambda} (known : scope.index < w.store.scopes.size)
    (ran : bindParameters scope l args w = (.ok (), w')) :
    scope.index < w'.store.scopes.size ∧ l.params.length ≤ args.length ∧
      (l.rest = none → args.length = l.params.length) ∧
      (∀ (i : Nat) (name : String) (v : Value), l.params[i]? = some name → args[i]? = some v →
        name ∉ l.params.drop (i + 1) → l.rest ≠ some name → w'.store.Holds scope name v) ∧
      ∀ name, l.rest = some name → w'.store.Holds scope name (.list (args.drop l.params.length)) := by
  unfold bindParameters at ran
  cases rest : l.rest with
  | none =>
    rw [rest] at ran
    dsimp only at ran
    split at ran
    · next same =>
      obtain ⟨later, -, each⟩ := bindEach_holds known ran
      exact ⟨later, Nat.le_of_eq same.symm, fun _ => same,
        fun i name v named given last _ => each i name v named given last, nofun⟩
    · exact nomatch ran
  | some rest' =>
    rw [rest] at ran
    dsimp only at ran
    split at ran
    · next enough =>
      rw [bind_run] at ran
      rcases bound : bindEach scope l.params args w with ⟨stop | ⟨⟩, w₁⟩ <;> rw [bound] at ran
      · exact nomatch ran
      · obtain ⟨later, -, each⟩ := bindEach_holds known bound
        obtain ⟨here, kept⟩ := Store.Holds.bindNew later rest' (.plain (.list (args.drop l.params.length)))
        cases ran
        refine ⟨?_, enough, nofun, fun i name v named given last other => ?_, ?_⟩
        · show _ < (w₁.store.bindNew scope rest' _).scopes.size
          rw [Store.size_bindNew]
          exact later
        · exact kept name v (fun same => other (congrArg some same.symm)) (each i name v named given last)
        · rintro name same
          cases same
          exact here
    · exact nomatch ran

/-- **A call that binds its arguments has bound them all.** -/
theorem bindArguments_holds {l : Lambda} (known : scope.index < w.store.scopes.size)
    (plain : l.hasSignature = false → l.params = [] ∧ l.rest = none)
    (ran : bindArguments scope l args w = (.ok (), w')) : Bound l args w'.store scope := by
  unfold bindArguments at ran
  split at ran
  · rw [bind_run] at ran
    rcases bound : bindParameters scope l args w with ⟨stop | ⟨⟩, w₁⟩ <;> rw [bound] at ran
    · exact nomatch ran
    · obtain ⟨later, enough, all, fixed, rest⟩ := bindParameters_holds known bound
      obtain ⟨here, kept⟩ := Store.Holds.bindNew later "args" (.plain (.list args))
      cases ran
      exact ⟨fun i name v named given last other apart => kept name v apart (fixed i name v named given last other),
        fun name same apart => kept name _ apart (rest name same), here, enough, fun none _ => all none⟩
  · next unsigned =>
    obtain ⟨none, noRest⟩ := plain (Bool.eq_false_of_not_eq_true unsigned)
    cases ran
    refine ⟨fun i name v named => ?_, fun name same => ?_, (Store.Holds.bindNew known "args" _).1, ?_, ?_⟩
    · rw [none] at named
      exact nomatch named
    · exact nomatch noRest.symm.trans same
    · rw [none]
      exact Nat.zero_le _
    · exact fun _ signed => absurd signed unsigned

end Binding

/-! ## Signatures -/

namespace Compile

variable {t t' : ScopeTable}

/-- A signature lists the fixed parameters, and then the rest parameter with its `@`. -/
theorem signature_declares {params : List Param} {names : List String} {rest : Option String}
    (h : signature params t = .ok ((names, rest), t')) :
    params.map Param.name = names ++ (rest.map ("@" ++ ·)).toList ∧ ∀ name ∈ names, name.toList.head? ≠ some '@' := by
  induction params generalizing t t' names rest with
  | nil =>
    obtain ⟨heq, rfl⟩ := pure_ok h
    cases heq
    exact ⟨rfl, nofun⟩
  | cons p ps ih =>
    obtain ⟨step, hstep⟩ : ∃ step, signature (p :: ps) = step := ⟨_, rfl⟩
    rw [hstep] at h
    rw [signature] at hstep
    split at hstep <;> subst hstep
    · next name marked =>
      by_cases last : ps.isEmpty
      · rw [if_pos last] at h
        obtain ⟨heq, rfl⟩ := pure_ok h
        cases heq
        have whole : "@" ++ String.ofList name = p.name := by
          rw [← String.toList_inj, String.toList_append, marked]
          exact congrArg ('@' :: ·) String.toList_ofList
        refine ⟨?_, nofun⟩
        rw [List.isEmpty_iff.mp last]
        show [p.name] = ["@" ++ String.ofList name]
        rw [whole]
      · rw [if_neg last] at h
        exact (failAt_ok h).elim
    · next unmarked =>
      obtain ⟨⟨names', rest'⟩, t₁, h₁, hk⟩ := bind_ok h
      obtain ⟨heq, rfl⟩ := pure_ok hk
      cases heq
      obtain ⟨declared, plain⟩ := ih h₁
      refine ⟨congrArg (p.name :: ·) declared, List.forall_mem_cons.mpr ⟨fun marked => ?_, plain⟩⟩
      obtain ⟨rest, same⟩ := List.head?_eq_some_iff.mp marked
      exact unmarked rest same

/-- **What a lambda is made of.** -/
structure Declares (params : List Param) (body : Compile Operation) (t : ScopeTable) (l : Lambda) : Prop where
  names : params.map Param.name = l.params ++ (l.rest.map ("@" ++ ·)).toList
  unmarked : ∀ name ∈ l.params, name.toList.head? ≠ some '@'
  signature : l.hasSignature = !params.isEmpty
  body : ∃ t₁, body (t.enter ("args" :: (l.rest.toList ++ l.params))) = .ok (l.body, t₁)

theorem closeOver_declares {params : List Param} {body : Compile Operation} {span : Span} {l : Lambda}
    (h : closeOver params body span t = .ok (l, t')) : Declares params body t l := by
  obtain ⟨⟨names, rest⟩, t₁, h₁, hk⟩ := bind_ok h
  obtain ⟨u, t₂, h₂, hk⟩ := bind_ok hk
  obtain ⟨op, t₃, h₃, hk⟩ := bind_ok hk
  obtain ⟨u', t₄, h₄, hk⟩ := bind_ok hk
  obtain ⟨rfl, rfl⟩ := pure_ok hk
  obtain ⟨rfl, -⟩ := signature_ok h₁
  obtain rfl := modify_ok h₂
  obtain ⟨declared, unmarked⟩ := signature_declares h₁
  exact ⟨declared, unmarked, rfl, t₃, h₃⟩

/-- Without parameters there is no signature. -/
theorem Declares.unsigned {params : List Param} {body : Compile Operation} {l : Lambda} (h : Declares params body t l)
    (none : l.hasSignature = false) : l.params = [] ∧ l.rest = Option.none := by
  have empty : params = [] := List.isEmpty_iff.mp (by simpa [h.signature] using none)
  have names := h.names
  rw [empty] at names
  obtain ⟨noFixed, noRest⟩ := List.append_eq_nil_iff.mp names.symm
  refine ⟨noFixed, ?_⟩
  cases rest : l.rest with
  | none => rfl
  | some name =>
    rw [rest] at noRest
    exact nomatch noRest

end Compile

/-! ## Reading the parameters -/

/-- **`$name` is the value** where a body starts: it is read and compiled as a reference, and that has the value and
changes nothing. -/
structure Frame.Reads (g : Frame) (w : World) (t : ScopeTable) (name : String) (v : Value) : Prop where
  read : name ≠ "" → (∀ c ∈ name.toList, Grammar.isVariableChar c = true) →
    ∀ (limit : Nat) (inner : Grammar.Inner) (around : Surroundings) (tail : List Char), around.Ends tail →
      TextReader.Leads (Grammar.primary? limit inner around) ('$' :: name.toList ++ tail) tail
        fun p => ∃ span, p = some (.reference name span)
  compiles : ∀ span, (Primary.reference name span).compile t = .ok (.reference (.ofText name) span, t)
  evaluates : ∀ (r : Runner) (span : Span), r.evaluate (.reference (.ofText name) span) g w = (.ok [v], w)

/-- A name that the local scope holds is read, if a reference does not split it. -/
theorem Store.Holds.reads {g : Frame} {w : World} {t : ScopeTable} {name : String} {v : Value}
    (h : w.store.Holds g.localScope name v) (known : t.visible name = true) (colon : ':' ∉ name.toList.dropLast)
    (unmarked : name.toList.head? ≠ some '@') : g.Reads w t name v := by
  have whole : Reference.ofText name = ⟨false, "", name⟩ := Reference.ofText_whole colon unmarked
  refine ⟨fun nonempty chars limit inner around tail ends => ?_, fun span => ?_, fun r span => ?_⟩
  · have read := @Grammar.leads_primary?_reference limit inner _ _ name.toList (by simpa using nonempty) chars unmarked
      ends
    rwa [String.ofList_toList] at read
  · rw [Primary.compile, whole]
    show (if t.visible name then _ else _ : Compile Expr) t = _
    rw [if_pos known]
    rfl
  · obtain ⟨c, found, value⟩ := h.read
    rw [whole, r.evaluate_reference (Frame.find?_of_plain (Frame.findPlain?_of_local found))]
    show (Except.ok [w.store.read c], w) = _
    rw [value]

/-- **Parameters receive their arguments.**  A call that binds its arguments runs the body in a frame where each fixed
parameter has the argument at its place, unless it is called `args`, or a later parameter has its name, or a reference
would split its name; and so does the rest parameter have the list of the arguments that are left. -/
theorem parameters_received {params : List Param} {body : Compile Operation} {span : Span} {t t' : ScopeTable}
    {l : Lambda} (compiled : closeOver params body span t = .ok (l, t')) {k : Closure} (closure : k.lambda = l)
    {args : List Value} {mode : CallMode} {f : Frame} {w w' : World}
    (bound : bindArguments ⟨w.store.scopes.size⟩ l args { w with store := (w.store.newScope []).2 } = (.ok (), w')) :
    let g := f.inside k mode ⟨w.store.scopes.size⟩
    let table := t.enter ("args" :: (l.rest.toList ++ l.params))
    (∀ fuel, (Runner.ofFuel (fuel + 1)).call (.closure k) args mode f w = (Runner.ofFuel fuel).runBody k mode g w') ∧
      (∃ t₁, body table = .ok (l.body, t₁)) ∧
      params.map Param.name = l.params ++ (l.rest.map ("@" ++ ·)).toList ∧
      (∀ (i : Nat) (name : String), l.params[i]? = some name → name ≠ "args" → l.rest ≠ some name →
        name ∉ l.params.drop (i + 1) → ':' ∉ name.toList.dropLast →
        ∃ v, args[i]? = some v ∧ g.Reads w' table name v) ∧
      (∀ name, l.rest = some name → name ≠ "args" → ':' ∉ name.toList.dropLast → name.toList.head? ≠ some '@' →
        g.Reads w' table name (.list (args.drop l.params.length))) ∧
      g.Reads w' table "args" (.list args) := by
  intro g table
  have declares := closeOver_declares compiled
  have known : (⟨w.store.scopes.size⟩ : ScopeId).index < (w.store.newScope []).2.scopes.size := by
    rw [Store.size_newScope]
    exact Nat.lt_succ_self _
  have holds : Bound l args w'.store g.localScope :=
    bindArguments_holds (w := { w with store := (w.store.newScope []).2 }) known declares.unsigned bound
  have visible (name : String) (mem : name ∈ "args" :: (l.rest.toList ++ l.params)) : table.visible name = true := by
    refine Bool.or_eq_true_iff.mpr (.inl (List.any_eq_true.mpr ⟨_, List.mem_cons_self, ?_⟩))
    exact List.contains_iff_mem.mpr mem
  refine ⟨fun fuel => ?_, declares.body, declares.names, fun i name at_ apart noRest last colon => ?_,
    fun name rest apart colon unmarked => ?_, ?_⟩
  · show (Runner.ofFuel fuel).callClosure k args mode f w = _
    subst closure
    exact bind_run_ok bound
  · have mem : name ∈ l.params := List.mem_of_getElem? at_
    have here : i < args.length := Nat.lt_of_lt_of_le (List.getElem?_eq_some_iff.mp at_).1 holds.enough
    have given : args[i]? = some args[i] := List.getElem?_eq_getElem here
    refine ⟨_, given, (holds.fixed i name _ at_ given last noRest apart).reads (visible name ?_) colon ?_⟩
    · exact List.mem_cons_of_mem _ (List.mem_append_right _ mem)
    · exact declares.unmarked name mem
  · refine (holds.rest name rest apart).reads (visible name ?_) colon unmarked
    exact List.mem_cons_of_mem _ (List.mem_append_left _ (Option.mem_toList.mpr rest))
  · exact holds.whole.reads (visible "args" List.mem_cons_self) (by decide) (by decide)

namespace Session

/-- In a call of `[a @b]{ }` with three arguments, `$a` is the first and `$b` the list of the others. -/
theorem parameters_received_with_rest :
    let params : List Param := [⟨"a", default⟩, ⟨"@b", default⟩]
    let args : List Value := [.text "1", .text "2", .text "3"]
    let store := bare.entered.store
    ∃ l t t' w', closeOver params (pure (.chunk [] default)) default t = .ok (l, t') ∧
      bindArguments ⟨store.scopes.size⟩ l args { bare.entered with store := (store.newScope []).2 } = (.ok (), w') ∧
      let g := bareFrame.inside ⟨0, l, ⟨0⟩, .interactive "", false⟩ .command ⟨store.scopes.size⟩
      (∀ (r : Runner), r.evaluate (.reference (.ofText "a") default) g w' = (.ok [.text "1"], w')) ∧
      ∀ (r : Runner),
        r.evaluate (.reference (.ofText "b") default) g w' = (.ok [.list [.text "2", .text "3"]], w') := by
  intro params args store
  let l : Lambda := ⟨["a"], some "b", true, .chunk [] default, default⟩
  let k : Closure := ⟨0, l, ⟨0⟩, .interactive "", false⟩
  have compiled : closeOver params (pure (.chunk [] default)) default (ScopeTable.start [] []) =
      .ok (l, ScopeTable.start [] []) := rfl
  have bound : bindArguments ⟨store.scopes.size⟩ l args { bare.entered with store := (store.newScope []).2 } =
    (.ok (), _) := ran_of_isOk (by decide +kernel)
  obtain ⟨-, -, -, fixed, rest, -⟩ := @parameters_received _ _ _ _ _ _ compiled k rfl _ .command bareFrame _ _ bound
  obtain ⟨v, given, reads⟩ := fixed 0 "a" rfl (by decide) (by decide) (by decide) (by decide)
  cases given
  exact ⟨l, _, _, _, compiled, bound, fun r => reads.evaluates r default,
    fun r => (rest "b" rfl (by decide) (by decide) (by decide)).evaluates r default⟩

/-- **Arguments out of reach.**  A parameter called `args` has the list of all arguments, of two parameters of one name
both have the argument of the second, and a parameter called `E:x` is bound, while `$E:x` reads the environment. -/
theorem arguments_out_of_reach :
    (bare.evaluateCaptured 60 (.interactive "[args]\x7b put $args \x7d a") none).2.1.values.map Value.display =
      ["[a]"] ∧
    (bare.evaluateCaptured 60 (.interactive "[a a]\x7b put $a \x7d 1 2") none).2.1.values.map Value.display = ["2"] ∧
    (bare.evaluateCaptured 60 (.interactive "[E:x]\x7b put $E:x \x7d a") none).2.1.values.map Value.display =
      [""] := by
  decide +kernel

end Session

end ValueShell
