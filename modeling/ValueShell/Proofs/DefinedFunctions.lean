/-
  What a function is called by.

  `fn f { }` binds the variable `f~`.  A command `f` is looked up as the variable `f~`, and a reference `$f~` names
  it, too.  The three agree on a name without a colon: a command is cut at its last colon before the `~` is put to
  it, and a reference after, so that each looks in some namespace for a name with a colon in it, while `fn` binds
  the whole.

  The variable is bound before the closure is made, which therefore captures it; so the function can call itself.
  That it still can when it is called, and from the blocks inside it, rests on two things.  Nothing is ever bound
  in a scope that was captured, because no code is at home there (`Closure.Inside`, the second rule).  And a closure
  that is made inside captures the variable again, unless the running call has bound the name anew (the third).
-/
import ValueShell.Proofs.KeptAssignments
import ValueShell.Proofs.Printing

namespace ValueShell

open Eval

/-! ## Names -/

theorem splitAtLast_of_not_mem {c : Char} {cs : List Char} (h : c ∉ cs) : splitAtLast c cs = none := by
  cases cut : splitAtLast c cs with
  | none => rfl
  | some parts =>
    rw [(splitAtLast_eq_some cut).1] at h
    exact absurd (List.mem_append_right _ List.mem_cons_self) h

/-- The name of a command is not cut if it has no colon, or ends in one. -/
theorem splitCommandName_whole {name : String}
    (whole : ':' ∉ name.toList ∨ name.toList.getLast? = some ':') : splitCommandName name = ("", name) := by
  unfold splitCommandName
  split
  · next ns c rest cut =>
    obtain ⟨parts, apart⟩ := splitAtLast_eq_some cut
    rcases whole with none | last
    · rw [parts] at none
      exact absurd (List.mem_append_right _ List.mem_cons_self) none
    · rw [parts, List.getLast?_append, List.getLast?_cons_cons] at last
      rcases Option.or_eq_some_iff.mp last with last | ⟨nothing, -⟩
      · exact absurd (List.mem_of_getLast? last) apart
      · exact absurd (List.getLast?_eq_none_iff.mp nothing) (List.cons_ne_nil _ _)
  · rfl

theorem Reference.leadingAt_unmarked {cs : List Char} (unmarked : cs.head? ≠ some '@') :
    leadingAt cs = (false, cs) := by
  unfold leadingAt
  split
  · exact absurd rfl unmarked
  · rfl

/-- A reference is not cut if its text has no colon except at the end. -/
theorem Reference.ofText_whole {text : String} (colon : ':' ∉ text.toList.dropLast)
    (unmarked : text.toList.head? ≠ some '@') : ofText text = ⟨false, "", text⟩ := by
  unfold ofText
  rw [leadingAt_unmarked unmarked]
  dsimp only
  split
  · next ns rest cut =>
    split at cut
    · next before ends =>
      have whole : text.toList = before.reverse ++ [':'] := by simpa using congrArg List.reverse ends
      rw [whole, List.dropLast_concat] at colon
      rw [splitAtLast_of_not_mem colon] at cut
      exact nomatch cut
    · next other =>
      obtain ⟨parts, apart⟩ := splitAtLast_eq_some cut
      rw [parts] at colon
      by_cases last : rest = []
      · exact absurd (by simp [parts, last]) (other ns.reverse)
      · exact absurd (colon_mem_dropLast ns last) colon
  · rw [String.ofList_toList]

/-- A reference to `f~` is not cut if `f` has no colon. -/
theorem Reference.ofText_suffixed {name : String} (colon : ':' ∉ name.toList)
    (unmarked : name.toList.head? ≠ some '@') : ofText (name ++ "~") = ⟨false, "", name ++ "~"⟩ := by
  have chars : (name ++ "~").toList = name.toList ++ ['~'] := String.toList_append
  refine ofText_whole ?_ ?_
  · rw [chars, List.dropLast_concat]
    exact colon
  · rw [chars, List.head?_append]
    cases head : name.toList.head? with
    | none => decide
    | some c =>
      rw [head] at unmarked
      exact unmarked

/-! ## Looking a function up -/

/-- A command whose name is not cut is the function that the variable of that name holds. -/
theorem findCommand_plain {f : Frame} {w : World} {name : String} {c : CellId} {k : Callable}
    (whole : splitCommandName name = ("", name)) (found : f.findPlain? w.store (name ++ "~") = some c)
    (holds : w.store.read c = .function k) : findCommand f name w = (.ok k, w) := by
  rw [findCommand, whole]
  dsimp only
  rw [get_bind_run, Frame.find?_of_plain found]
  dsimp only [World.valueAt]
  rw [holds]
  rfl

/-- A command that no function is found for is one of the system. -/
theorem findCommand_absent {f : Frame} {w : World} {name ns base : String}
    (cut : splitCommandName name = (ns, base)) (absent : f.find? w.store ns (base ++ "~") = none) :
    findCommand f name w = (.ok (.external name), w) := by
  rw [findCommand, cut]
  dsimp only
  rw [get_bind_run, absent]
  rfl

/-- `resolve` of such a name reports the variable. -/
theorem Runner.resolve_plain (r : Runner) {f : Frame} {w : World} {name : String} {c : CellId}
    (ordinary : SpecialForm.ofName? name = none) (whole : splitCommandName name = ("", name))
    (found : f.find? w.store "" (name ++ "~") = some (.cell c)) :
    r.builtin .resolve [.text name] f w = put f.ports (.text ("$" ++ name ++ "~")) w := by
  show (ofExcept (.ok name) >>= _) w = _
  rw [ofExcept_ok, pure_bind, ordinary, whole]
  dsimp only [Option.isSome_none]
  rw [if_neg nofun, get_bind_run, found]

theorem toList_reported (name : String) : ("$" ++ name ++ "~").toList = '$' :: (name ++ "~").toList := by
  simp [String.toList_append]

/-- What it reports is read as a reference, if the name is made of the characters of variables. -/
theorem leads_reported {name : String} (chars : ∀ c ∈ name.toList, Grammar.isVariableChar c = true) {limit : Nat}
    {inner : Grammar.Inner} {around : Surroundings} {tail : List Char} (ends : around.Ends tail) :
    TextReader.Leads (Grammar.primary? limit inner around) ('$' :: (name ++ "~").toList ++ tail) tail
      fun p => ∃ span, p = some (.reference (name ++ "~") span) := by
  have suffixed : (name ++ "~").toList = name.toList ++ ['~'] := String.toList_append
  have all : ∀ c ∈ (name ++ "~").toList, Grammar.isVariableChar c = true := by
    intro c mem
    rw [suffixed] at mem
    rcases List.mem_append.mp mem with mem | mem
    · exact chars c mem
    · rw [List.mem_singleton.mp mem]
      rfl
  have unmarked : (name ++ "~").toList.head? ≠ some '@' := by
    intro marked
    exact absurd (all '@' (List.mem_of_head? marked)) (by decide)
  have read : TextReader.Leads (Grammar.primary? limit inner around) ('$' :: (name ++ "~").toList ++ tail) tail
      fun p => ∃ span, p = some (.reference (String.ofList (name ++ "~").toList) span) :=
    Grammar.leads_primary?_reference (name ++ "~").toList (by simp [suffixed]) all unmarked ends
  rwa [String.ofList_toList] at read

/-! ## Defining a function -/

namespace Store

/-- What a scope binds, a new scope that has it below another binds, too. -/
theorem find?_overlay {s : Store} {outer inner : ScopeId} {name : String} {c : CellId}
    (sorted : (s.scope inner).Sorted) (found : s.find? inner name = some c) :
    (s.overlay outer inner).2.find? ⟨s.scopes.size⟩ name = some c := by
  rw [find?, overlay, scope_newScope_self]
  exact sorted.find?_overlay _ found

/-- And what it does not bind is as in the other. -/
theorem find?_overlay_of_none {s : Store} {outer inner : ScopeId} {name : String}
    (absent : s.find? inner name = none) :
    (s.overlay outer inner).2.find? ⟨s.scopes.size⟩ name = s.find? outer name := by
  rw [find?, overlay, scope_newScope_self]
  exact Table.find?_overlay_of_none _ absent

end Store

/-- **What `fn` has done.**  The variable is bound in the frame and in the scope that the closure has captured, and
holds the closure. -/
structure Defined (name : String) (body : Lambda) (f : Frame) (w : World) (k : Closure) (c : CellId) : Prop where
  lambda : k.lambda = body
  source : k.source = f.source
  isFunction : k.isFunction = true
  found : w.store.find? f.localScope (name ++ "~") = some c
  captured : w.store.find? k.captured (name ++ "~") = some c
  known : k.captured.index < w.store.scopes.size
  holds : w.store.read c = .function (.closure k)

/-- A variable for a function, as it is before it gets one. -/
def Cell.undefined (name : String) : Cell := .forName (name ++ "~") (.function (.builtin .nop))

theorem Store.declare_suffixed (s : Store) (name : String) : s.declare (name ++ "~") = s.newCell (.undefined name) := by
  unfold declare
  rw [Constraint.forName?_function]
  rfl

/-- It takes any function. -/
theorem Cell.assign_undefined (name : String) (k : Callable) :
    (Cell.undefined name).assign (.function k) = .ok { Cell.undefined name with value := .function k } := by
  have constraint : (Cell.undefined name).constraint = some .callable := Constraint.forName?_function name
  unfold assign
  split
  · next readOnly => exact nomatch readOnly
  · rw [constraint]
    dsimp only [Constraint.check, Except.map]
    rw [constraint]

/-- **`fn` succeeds**, whatever the name and the body. -/
theorem define_ok (name : String) (body : Lambda) {f : Frame} {w : World}
    (known : f.localScope.index < w.store.scopes.size) (sorted : (w.store.scope f.localScope).Sorted) :
    ∃ k c w', define name body f w = (.ok (), w') ∧ Defined name body f w' k c := by
  -- the variable is bound, the closure made, and assigned to the variable
  let c : CellId := ⟨w.store.cells.size⟩
  let bound : Store := w.store.bindNew f.localScope (name ++ "~") (.undefined name)
  let k : Closure := ⟨bound.nextIdentity, body, ⟨bound.scopes.size⟩, f.source, true⟩
  let made : Store := (bound.overlay f.upScope f.localScope).2.newIdentity.2
  let stored : Store := made.setCell c { Cell.undefined name with value := .function (.closure k) }
  have held : made.cell? c = some (.undefined name) := by
    show (w.store.newCell (.undefined name)).2.cell? ⟨w.store.cells.size⟩ = _
    rw [Store.cell?_newCell, if_pos rfl]
  have assigns : made.changeCell c (fun cell => cell.assign (.function (.closure k))) = .ok stored := by
    rw [Store.changeCell, held]
    dsimp only
    rw [Cell.assign_undefined]
    rfl
  have found : bound.find? f.localScope (name ++ "~") = some c := Store.find?_bindNew known _ _
  have size : bound.scopes.size = w.store.scopes.size := Store.size_bindNew ..
  refine ⟨k, c, { w with store := stored }, ?_, rfl, rfl, rfl, ?_, ?_, ?_, ?_⟩
  · have binds : updateStore (fun s => ((s.declare (name ++ "~")).1, (s.declare (name ++ "~")).2.bind f.localScope
        (name ++ "~") (s.declare (name ++ "~")).1)) w = (.ok c, { w with store := bound }) := by
      rw [updateStore_run, w.store.declare_suffixed]
      rfl
    have closes : close f body true { w with store := bound } = (.ok (.closure k), { w with store := made }) := rfl
    have sets : tryCell c (fun cell => cell.assign (.function (.closure k))) { w with store := made } =
        (.ok (.ok ()), { w with store := stored }) := by
      rw [tryCell_run]
      dsimp only
      rw [assigns]
    unfold define
    rw [bind_run_ok binds, bind_run_ok closes, bind_run_ok sets]
    rfl
  · show Table.find? ((bound.overlay f.upScope f.localScope).2.scope f.localScope) _ = _
    rw [Store.overlay, Store.scope_newScope_of_lt _ _ (size ▸ known)]
    exact found
  · have entries : bound.scope f.localScope = Table.insert (w.store.scope f.localScope) (name ++ "~") c :=
      Store.scope_bind_self (w.store.newCell (.undefined name)).2 _ _ known
    exact Store.find?_overlay (entries ▸ sorted.insert _ _) found
  · show bound.scopes.size < (bound.scopes.push _).size
    rw [Array.size_push]
    exact Nat.lt_succ_self _
  · rw [Store.read, Store.cell?_setCell, if_pos rfl, held]
    rfl

/-! ## Inside the body -/

/-- **The closures whose code stands in the body** of the function `k`, in the worlds after `w`, in which `k` was
defined under `name`. -/
inductive Closure.Inside (k : Closure) (name : String) (w : World) : World → Closure → Prop
  | itself : Inside k name w w k
  /-- code runs; it is not at home in a scope that was captured -/
  | later {v v' : World} {inner : Closure} {e : Ending} {home : Option ScopeId} {loading : List String}
      (before : Inside k name w v inner) (run : Evolves e home loading v v') (away : home ≠ some inner.captured) :
      Inside k name w v' inner
  /-- a call of such a closure makes another one, while the name is not bound anew in the call -/
  | makes {v v' : World} {inner made : Closure} {g : Frame} {lambda : Lambda} {isFunction : Bool}
      (before : Inside k name w v inner) (call : g.upScope = inner.captured)
      (unbound : v.store.find? g.localScope (name ++ "~") = none)
      (closes : close g lambda isFunction v = (.ok (.closure made), v')) : Inside k name w v' made

/-- A scope is captured when a closure is made, and stays as it is. -/
theorem Closure.Inside.captured {k : Closure} {name : String} {w v : World} {inner : Closure} {c : CellId}
    (h : k.Inside name w v inner) (found : w.store.find? k.captured (name ++ "~") = some c)
    (known : k.captured.index < w.store.scopes.size) :
    v.store.find? inner.captured (name ++ "~") = some c ∧ inner.captured.index < v.store.scopes.size := by
  induction h with
  | itself => exact ⟨found, known⟩
  | later _ run away ih =>
    exact ⟨(run.grows.find?_eq_of_ne ih.2 away _).trans ih.1, Nat.lt_of_lt_of_le ih.2 run.grows.scopes⟩
  | @makes v v' inner made g lambda isFunction _ call unbound closes ih =>
    rw [close_run] at closes
    obtain ⟨same, rfl⟩ := Prod.mk.inj closes
    cases same
    refine ⟨?_, ?_⟩
    · show (v.store.overlay g.upScope g.localScope).2.find? _ _ = _
      rw [Store.find?_overlay_of_none unbound, call]
      exact ih.1
    · show v.store.scopes.size < (v.store.scopes.push _).size
      rw [Array.size_push]
      exact Nat.lt_succ_self _

/-! ## Calls -/

namespace Closure

/-- The world in which the body of a closure begins that is called without arguments; its local scope is the last that
was made. -/
def opened (k : Closure) (v : World) : World :=
  (bindArguments ⟨v.store.scopes.size⟩ k.lambda [] { v with store := (v.store.newScope []).2 }).2

section Opened

variable {k : Closure} (v : World) (plain : k.lambda.hasSignature = false)
include plain

theorem opened_eq : k.opened v = { v with
    store := (v.store.newScope []).2.bindNew ⟨v.store.scopes.size⟩ "args" (.plain (.list [])) } := by
  rw [opened, bindArguments, plain]
  rfl

/-- Without a signature a call binds nothing but `args`. -/
theorem find?_opened {name : String} (other : name ≠ "args") :
    (k.opened v).store.find? ⟨v.store.scopes.size⟩ name = none := by
  let s := ((v.store.newScope []).2.newCell (.plain (.list []))).2
  have known : v.store.scopes.size < s.scopes.size :=
    Nat.lt_of_lt_of_eq (Nat.lt_succ_self _) (Store.size_newScope v.store []).symm
  have entries : (k.opened v).store.scope ⟨v.store.scopes.size⟩ =
      Table.insert (s.scope ⟨v.store.scopes.size⟩) "args" ⟨v.store.cells.size⟩ := by
    rw [opened_eq v plain]
    exact @Store.scope_bind_self s ⟨v.store.scopes.size⟩ "args" _ known
  rw [Store.scope_newCell, Store.scope_newScope_self] at entries
  rw [Store.find?, entries, Table.find?_insert_of_ne _ _ other.symm]
  rfl

/-- It takes no function away. -/
theorem read_opened {c : CellId} {held : Callable} (h : v.store.read c = .function held) :
    (k.opened v).store.read c = .function held := by
  rw [opened_eq v plain]
  cases there : v.store.cell? c with
  | none =>
    rw [Store.read, there] at h
    cases h
  | some cell =>
    have kept := Store.cell?_newCell_of_some (v.store.newScope []).2 (.plain (.list [])) there
    rw [Store.read, there] at h
    show ((v.store.newScope []).2.newCell _).2.read c = _
    rw [Store.read, kept]
    exact h

omit plain in
variable {v} in
/-- A call is at home in a scope of its own. -/
theorem Inside.opens {j : Closure} {name : String} {w : World} (before : j.Inside name w v k)
    (known : k.captured.index < v.store.scopes.size) : j.Inside name w (k.opened v) k := by
  have scope : Inside j name w { v with store := (v.store.newScope []).2 } k :=
    .later before (@Evolves.change none [] _ _ (.newScope [] (List.forall_mem_nil _))) (Option.some_ne_none _).symm
  have binds : Stays (some ⟨v.store.scopes.size⟩) [] (bindArguments ⟨v.store.scopes.size⟩ k.lambda []) :=
    Runner.stays_bindArguments rfl k.lambda []
  refine .later scope (binds _) fun same => ?_
  exact Nat.ne_of_gt known (congrArg ScopeId.index (Option.some.inj same))

end Opened

end Closure

/-- A call inside the body finds the variable, unless it has bound the name anew. -/
theorem Defined.findPlain? {name : String} {body : Lambda} {f g : Frame} {w v : World} {k inner : Closure}
    {c : CellId} (h : Defined name body f w k c) (inside : k.Inside name w v inner)
    (call : g.upScope = inner.captured) (unbound : v.store.find? g.localScope (name ++ "~") = none) :
    g.findPlain? v.store (name ++ "~") = some c := by
  rw [Frame.findPlain?, unbound, call, (inside.captured h.captured h.known).1]
  rfl

/-- **A function is callable by its name.**  At any moment of a session, `fn` with a name that is not that of a special
form, and has no colon or ends in one, succeeds.  After it the command of that name is the closure just made, and
`resolve` reports the variable.  If the name has no colon at all and no `@` in front, a reference to the variable has
the closure for its value; and if it is made of the characters of variables, what `resolve` reports is read as that
reference.  Inside the body the command is the closure as long as the variable holds it and the call has not bound the
name anew. -/
theorem function_callable_by_name {library : Library} {environment : Environment} {files : FileTree}
    {processId name : String} (body : Lambda) (span : Span) {f : Frame} {w : World}
    (moment : (Session.start library environment files processId).Moment f w)
    (ordinary : SpecialForm.ofName? name = none)
    (whole : ':' ∉ name.toList ∨ name.toList.getLast? = some ':') (fuel : Nat) :
    ∃ k c w', (Runner.ofFuel (fuel + 1)).operation (.define name body span) f w = (.ok (), w') ∧
      Defined name body f w' k c ∧
      findCommand f name w' = (.ok (.closure k), w') ∧
      (∀ r : Runner, r.builtin .resolve [.text name] f w' = put f.ports (.text ("$" ++ name ++ "~")) w') ∧
      (':' ∉ name.toList → name.toList.head? ≠ some '@' → ∀ (r : Runner) (span : Span),
        r.evaluate (.reference (Reference.ofText (name ++ "~")) span) f w' = (.ok [.function (.closure k)], w')) ∧
      ((∀ c ∈ name.toList, Grammar.isVariableChar c = true) →
        ∀ (limit : Nat) (inner : Grammar.Inner) (around : Surroundings) (tail : List Char), around.Ends tail →
          TextReader.Leads (Grammar.primary? limit inner around) (("$" ++ name ++ "~").toList ++ tail) tail
            fun p => ∃ span, p = some (.reference (name ++ "~") span)) ∧
      ∀ v inner g, k.Inside name w' v inner → g.upScope = inner.captured →
        v.store.find? g.localScope (name ++ "~") = none → v.store.read c = .function (.closure k) →
        findCommand g name v = (.ok (.closure k), v) := by
  have uncut := splitCommandName_whole whole
  obtain ⟨k, c, w', run, defined⟩ := define_ok name body moment.inOrder.known moment.inOrder.sorted
  have plain : f.findPlain? w'.store (name ++ "~") = some c := by
    rw [Frame.findPlain?, defined.found]
    rfl
  have place : f.find? w'.store "" (name ++ "~") = some (.cell c) := by
    show (f.findPlain? w'.store (name ++ "~")).map Place.cell = _
    rw [plain]
    rfl
  refine ⟨k, c, w', located_run_ok run, defined, findCommand_plain uncut plain defined.holds,
    fun r => r.resolve_plain ordinary uncut place, fun colon unmarked r span => ?_,
    fun chars limit inner around tail ends => ?_, fun v inner g inside call unbound holds => ?_⟩
  · rw [Reference.ofText_suffixed colon unmarked, r.evaluate_reference place]
    show (Except.ok [w'.store.read c], w') = _
    rw [defined.holds]
  · rw [toList_reported]
    exact leads_reported chars ends
  · exact findCommand_plain uncut (defined.findPlain? inside call unbound) holds

namespace Session

/-- The frame of a unit that starts in a session in which nothing has run. -/
def bareFrame : Frame := bare.frame (.interactive "") .standard ⟨bare.world.store.scopes.size⟩

/-- What `fn` does there. -/
def defines (name : String) (body : Lambda) : Except Stop Unit × World :=
  (Runner.ofFuel 1).operation (.define name body default) bareFrame bare.entered

/-- The body `{ }`. -/
def idle : Lambda := ⟨[], none, false, .chunk [] default, default⟩

/-- The block of `{ { f } }`. -/
def callingBlock : Lambda := ⟨[], none, false, .chunk [.call (.name "f") [] default] default, default⟩

/-- The body `{ { f } }`. -/
def nestedBody : Lambda :=
  ⟨[], none, false, .chunk [.call (.value (.lambda callingBlock)) [] default] default, default⟩

/-- After `fn f { { f } }` the command `f` is the function.  It is so in a call of it, and when that calls the block
in the body. -/
theorem function_callable_by_name_f :
    let w := (defines "f" nestedBody).2
    ∃ k block v, (defines "f" nestedBody).1 = .ok () ∧ findCommand bareFrame "f" w = (.ok (.closure k), w) ∧
      let f := bareFrame.inside k .command ⟨w.store.scopes.size⟩
      let g := f.inside block .command ⟨v.store.scopes.size⟩
      findCommand f "f" (k.opened w) = (.ok (.closure k), k.opened w) ∧
        close f callingBlock false (k.opened w) = (.ok (.closure block), v) ∧
        findCommand g "f" (block.opened v) = (.ok (.closure k), block.opened v) := by
  intro w
  have moment : bare.Moment bareFrame bare.entered := .unit .now _ _
  obtain ⟨k, c, w', run, defined, command, -, -, -, inside⟩ := @function_callable_by_name _ _ _ _ "f"
    nestedBody default _ _ moment (by decide) (.inl (by decide)) 0
  have run : defines "f" nestedBody = (.ok (), w') := run
  have same : w = w' := congrArg Prod.snd run
  clear_value w
  subst same
  have plain : k.lambda.hasSignature = false := by
    rw [defined.lambda]
    rfl
  have other : "f~" ≠ "args" := by decide
  -- the call of the function
  have called : k.Inside "f" w (k.opened w) k := .opens .itself defined.known
  have unbound := Closure.find?_opened w plain other
  have holds := Closure.read_opened w plain defined.holds
  -- the call of the block
  let f := bareFrame.inside k .command ⟨w.store.scopes.size⟩
  let block : Closure :=
    ⟨(k.opened w).store.nextIdentity, callingBlock, ⟨(k.opened w).store.scopes.size⟩, f.source, false⟩
  obtain ⟨v, closes, same⟩ : ∃ v, close f callingBlock false (k.opened w) = (.ok (.closure block), v) ∧
      ∀ c, v.store.read c = (k.opened w).store.read c := ⟨_, close_run .., fun _ => rfl⟩
  have made : k.Inside "f" w v block := .makes called rfl unbound closes
  have inBlock := made.opens (made.captured defined.captured defined.known).2
  have outside := @Closure.find?_opened block v rfl _ other
  have kept := @Closure.read_opened block v rfl _ _ ((same c).trans holds)
  exact ⟨k, block, v, congrArg Prod.fst run, command, inside _ k f called rfl unbound holds, closes,
    inside _ block _ inBlock rfl outside kept⟩

/-- **Functions out of reach.**  After `fn a:b { }` the command `a:b` is one of the system.  After `fn x: { }`,
`resolve` reports `$x:~`, which names a variable `~` of a namespace that there is not.  And in the body of a function
with a parameter `f~`, the command `f` is what the call was given for it. -/
theorem functions_out_of_reach :
    ((defines "a:b" idle).1.isOk = true ∧
      findCommand bareFrame "a:b" (defines "a:b" idle).2 = (.ok (.external "a:b"), (defines "a:b" idle).2)) ∧
    ((defines "x:" idle).1.isOk = true ∧ Reference.ofText ("x:" ++ "~") = ⟨false, "x", "~"⟩ ∧
      bareFrame.find? (defines "x:" idle).2.store "x" "~" = none) ∧
    (bare.evaluateCaptured 60 (.interactive "fn f [f~]{ f }; f { put inner }") none).2.1.values.map
      Value.display = ["inner"] := by
  refine ⟨⟨by decide +kernel, ?_⟩, ⟨by decide +kernel, by decide, ?_⟩, by decide +kernel⟩
  · refine @findCommand_absent _ _ "a:b" "a" "b" (by decide) (Option.isNone_iff_eq_none.mp ?_)
    decide +kernel
  · refine Option.isNone_iff_eq_none.mp ?_
    decide +kernel

end Session

end ValueShell
