/-
  What a closure keeps.

  A closure captures what is visible where it is made, as one scope: the names that were bound locally, and under
  them what the frame had itself closed over.  The scope maps names to cells, so the cells are shared with everyone who
  has them, while the map is the closure's own.  From then on nobody is at home in that scope (`Instant.Idle`), no
  matter what the frame that made the closure, its callers, or later units declare, bind again or delete.  The builtins
  do not change either.  So a call that starts, whenever and wherever that is, finds under a name what the frame found
  that made the closure, unless the call binds the name itself (`lexical_scoping_stable`).

  How deep closures are nested makes no difference, since the frame that makes one may itself be that of a call, with a
  captured scope above its own.
-/
import ValueShell.Proofs.EnclosedCourses
import ValueShell.Proofs.ReceivedArguments

namespace ValueShell

open Eval

/-! ## Making a closure -/

/-- Both scopes are visible through a scope made of them, the inner one first. -/
theorem Store.find?_overlay_or {s : Store} {outer inner : ScopeId} (sorted : (s.scope inner).Sorted) (name : String) :
    Table.find? (Table.overlay (s.scope outer) (s.scope inner)) name =
      (s.find? inner name).or (s.find? outer name) := by
  cases found : s.find? inner name with
  | some c => exact sorted.find?_overlay _ found
  | none => exact Table.find?_overlay_of_none _ found

section Capture

variable {s : Session} {f h : Frame} {fs hs : List Frame} {u u' z : World} {lambda : Lambda} {isFunction : Bool}
  {k : Closure}

/-- **What a closure captures is idle from the start.** -/
theorem Instant.Proper.idle_close (proper : (⟨fs, u⟩ : Instant).Proper s)
    (closes : close f lambda isFunction u = (.ok (.closure k), u')) :
    (⟨fs, u'⟩ : Instant).Idle s k.captured (Table.overlay (u.store.scope f.upScope) (u.store.scope f.localScope)) := by
  rw [close_run] at closes
  obtain ⟨same, rfl⟩ := Prod.mk.inj closes
  cases same
  have elsewhere {scope : ScopeId} (ordered : u.store.InOrder scope) : scope ≠ ⟨u.store.scopes.size⟩ := by
    rintro rfl
    exact Nat.lt_irrefl _ ordered.known
  refine ⟨?_, Store.scope_newScope_self .., elsewhere proper.globals, fun g mem => elsewhere (proper.frames g mem)⟩
  show u.store.scopes.size < (u.store.newScope _).2.scopes.size
  rw [Store.size_newScope]
  exact Nat.lt_succ_self _

/-- To make a closure is a step of the code that makes it. -/
theorem Session.Proceeds.close (s : Session) (fs : List Frame)
    (closes : Eval.close f lambda isFunction u = (.ok (.closure k), u')) : s.Proceeds ⟨f :: fs, u⟩ ⟨f :: fs, u'⟩ :=
  .code fs ((stays_close f lambda isFunction).evolves closes)

/-- **A frame above which is what the closure captured** finds under a name what the frame found that made the closure,
unless it has bound the name itself. -/
theorem Session.Course.findPlain?_captured {builtins : Table CellId} (proper : (⟨f :: fs, u⟩ : Instant).Proper s)
    (idle : (⟨f :: fs, u⟩ : Instant).Idle s s.setting.builtins builtins)
    (closes : Eval.close f lambda isFunction u = (.ok (.closure k), u'))
    (course : s.Course ⟨f :: fs, u'⟩ ⟨h :: hs, z⟩) (above : h.upScope = k.captured) {name : String}
    (unbound : z.store.find? h.localScope name = none) : h.findPlain? z.store name = f.findPlain? u.store name := by
  have made := Proceeds.close s fs closes
  have captured := (course.idle (proper.idle_close closes)).entries
  have builtins : z.store.scope s.setting.builtins = u.store.scope s.setting.builtins :=
    (course.idle (idle.step made)).entries.trans idle.entries.symm
  have setting : h.setting = s.setting := (course.proper (proper.step made)).setting h List.mem_cons_self
  have setting' : f.setting = s.setting := proper.setting f List.mem_cons_self
  have sorted := (proper.frames f List.mem_cons_self).sorted
  calc h.findPlain? z.store name
      = (z.store.find? k.captured name).or (z.store.find? s.setting.builtins name) := by
        rw [Frame.findPlain?, unbound, above, setting, Option.none_or]
    _ = ((u.store.find? f.localScope name).or (u.store.find? f.upScope name)).or
          (u.store.find? s.setting.builtins name) := by
        show (Table.find? (z.store.scope k.captured) name).or (Table.find? (z.store.scope s.setting.builtins) name) = _
        rw [captured, Store.find?_overlay_or sorted, builtins]
        rfl
    _ = f.findPlain? u.store name := by rw [Frame.findPlain?, setting']

end Capture

/-! ## Starting a call -/

section Start

variable {scope : ScopeId} {names : List String} {args : List Value} {w w' : World} {name : String}

theorem find?_bindEach (known : scope.index < w.store.scopes.size) (other : name ∉ names)
    (ran : bindEach scope names args w = (.ok (), w')) :
    scope.index < w'.store.scopes.size ∧ w'.store.find? scope name = w.store.find? scope name := by
  induction names generalizing args w with
  | nil =>
    rw [bindEach_nil] at ran
    cases ran
    exact ⟨known, rfl⟩
  | cons first names ih =>
    cases args with
    | nil =>
      cases ran
      exact ⟨known, rfl⟩
    | cons arg args =>
      obtain ⟨apart, other⟩ := List.ne_and_not_mem_of_not_mem_cons other
      rw [Runner.bindEach_cons, bind_run, Runner.bindOne_run] at ran
      cases taken : (w.store.declare first).2.write (w.store.declare first).1 arg with
      | error e =>
        rw [taken] at ran
        exact nomatch ran
      | ok store =>
        rw [taken] at ran
        obtain ⟨keeps, -⟩ := Store.keeps_declare known first
        obtain ⟨cell, -, rfl⟩ := Store.cell?_write (w.store.isSome_cell?_declare first) taken
        let declared : Store := (w.store.declare first).2.setCell (w.store.declare first).1 cell
        have there : scope.index < (declared.bind scope first (w.store.declare first).1).scopes.size :=
          Nat.lt_of_lt_of_eq keeps.known Array.size_modify.symm
        obtain ⟨there, same⟩ := ih there other ran
        refine ⟨there, same.trans ?_⟩
        refine (Store.find?_bind_of_ne (s := declared) keeps.known apart.symm _).trans ?_
        exact congrArg (Table.find? · name) keeps.entries

theorem find?_bindParameters {l : Lambda} (known : scope.index < w.store.scopes.size) (fixed : name ∉ l.params)
    (rest : l.rest ≠ some name) (ran : bindParameters scope l args w = (.ok (), w')) :
    scope.index < w'.store.scopes.size ∧ w'.store.find? scope name = w.store.find? scope name := by
  unfold bindParameters at ran
  cases last : l.rest with
  | none =>
    rw [last] at ran
    dsimp only at ran
    split at ran
    · exact find?_bindEach known fixed ran
    · exact nomatch ran
  | some other =>
    rw [last] at ran rest
    dsimp only at ran
    split at ran
    · obtain ⟨⟨⟩, w₁, bound, ran⟩ := of_bind_run_ok ran
      obtain ⟨there, same⟩ := find?_bindEach known fixed bound
      cases ran
      refine ⟨?_, (Store.find?_bindNew_of_ne there (fun same => rest (congrArg some same)) _).trans same⟩
      show _ < (w₁.store.bindNew scope other _).scopes.size
      rw [Store.size_bindNew]
      exact there
    · exact nomatch ran

/-- **The scope of a call binds nothing else** than the parameters, the rest parameter and `args`. -/
theorem find?_bindArguments {l : Lambda} (known : scope.index < w.store.scopes.size) (fixed : name ∉ l.params)
    (rest : l.rest ≠ some name) (whole : name ≠ "args") (ran : bindArguments scope l args w = (.ok (), w')) :
    w'.store.find? scope name = w.store.find? scope name := by
  unfold bindArguments at ran
  split at ran
  · obtain ⟨⟨⟩, w₁, bound, ran⟩ := of_bind_run_ok ran
    obtain ⟨there, same⟩ := find?_bindParameters known fixed rest bound
    cases ran
    exact (Store.find?_bindNew_of_ne there whole.symm _).trans same
  · cases ran
    exact Store.find?_bindNew_of_ne known whole.symm _

end Start

/-! ## Writing and reading -/

/-- **What one frame assigns to a name, another one reads under it**, if it is the same variable for both. -/
theorem Frame.readVariable_assigned {writer reader : Frame} {w w' : World} {name : String} {c : CellId} {value : Value}
    (whole : w.store.Whole) (mine : writer.find? w.store "" name = some (.cell c))
    (yours : reader.find? w.store "" name = some (.cell c))
    (assigned : (resolveOrDeclare writer "" name >>= (writePlace · value)) w = (.ok (.ok ()), w')) :
    readVariable reader "" name w' = (.ok value, w') := by
  obtain ⟨cell, held⟩ := whole.find? mine
  have resolved : resolveOrDeclare writer "" name w = (.ok (.cell c), w) := by
    rw [resolveOrDeclare, get_bind_run, mine]
    rfl
  rw [bind_run_ok resolved] at assigned
  change tryCell c (fun cell => cell.assign value) w = _ at assigned
  rw [tryCell_run, Store.changeCell, held] at assigned
  dsimp only at assigned
  cases takes : cell.assign value with
  | error e =>
    rw [takes] at assigned
    cases assigned
  | ok cell' =>
    rw [takes] at assigned
    cases assigned
    have now : (w.store.setCell c cell').cell? c = some cell' := by
      rw [Store.cell?_setCell, if_pos rfl, held]
      rfl
    have read : (w.store.setCell c cell').read c = value := by
      rw [Store.read, now, Cell.assign_eq takes]
    have found : reader.find? (w.store.setCell c cell') "" name = some (.cell c) := yours
    rw [readVariable, get_bind_run]
    dsimp only
    rw [found]
    exact congrArg (fun v => (Except.ok v, _)) read

/-- **Lexical scoping is stable.**  In a session, a frame `f` makes a closure `k` of a lambda.  Later, after any course
of the session, a frame `g` calls it, and the arguments are bound.  Then the body runs in a frame `inside`, in which
every name that the call itself does not bind stands for the variable that it stood for in `f` when the closure was
made, or for nothing if it did then.  As long as the body runs, that is so for every evaluation inside of it that runs
in a frame of the closure, under names that the call has not bound by then.  And whenever such a name stands for that
variable in `f` or `inside`, what is assigned to it in the one is what is read in the other.

Every evaluation inside of a unit is on a course of the session, and so are its end and what it runs; hence `f` and `g`
may be the frames of any two evaluations of which the second one is on a course from the first. -/
theorem lexical_scoping_stable (library : Library) (environment : Environment) (files : FileTree)
    (processId : String) :
    let s := Session.start library environment files processId
    (∀ {f g : Frame} {fs gs : List Frame} {u u' v v' : World} {lambda : Lambda} {isFunction : Bool} {k : Closure}
      {args : List Value} (mode : CallMode),
      s.Course ⟨[], s.world⟩ ⟨f :: fs, u⟩ →
      close f lambda isFunction u = (.ok (.closure k), u') →
      s.Course ⟨f :: fs, u'⟩ ⟨g :: gs, v⟩ →
      bindArguments ⟨v.store.scopes.size⟩ lambda args { v with store := (v.store.newScope []).2 } = (.ok (), v') →
      let inside := g.inside k mode ⟨v.store.scopes.size⟩
      (∀ r : Runner, r.callFunction (.closure k) args mode g v = r.runBody k mode inside v') ∧
      (∀ name, name ∉ lambda.params → lambda.rest ≠ some name → name ≠ "args" →
        inside.find? v'.store "" name = f.find? u.store "" name ∧
        ∀ c, f.find? u.store "" name = some (.cell c) → ∀ hs w, s.Course ⟨f :: fs, u'⟩ ⟨hs, w⟩ →
          ∀ writer ∈ [f, inside], ∀ reader ∈ [f, inside],
            writer.find? w.store "" name = some (.cell c) → reader.find? w.store "" name = some (.cell c) →
            ∀ value w', (resolveOrDeclare writer "" name >>= (writePlace · value)) w = (.ok (.ok ()), w') →
              readVariable reader "" name w' = (.ok value, w')) ∧
      ∀ fuel inner, (Evaluation.mk fuel (.operation lambda.body inside) v').Encloses inner →
        inner.task.frame.upScope = k.captured → ∀ name,
          inner.world.store.find? inner.task.frame.localScope name = none →
          inner.task.frame.find? inner.world.store "" name = f.find? u.store "" name) ∧
    ∀ t, s.Later t → ∀ fuel op source ports e, (t.evaluation fuel op source ports).Encloses e →
      ∃ fs, s.Course ⟨[], s.world⟩ ⟨e.task.frame :: fs, e.world⟩ ∧
        s.Course ⟨e.task.frame :: fs, e.world⟩ ⟨e.task.frame :: fs, e.outcome.2⟩ ∧
        ∀ inner, e.Encloses inner →
          ∃ fs', s.Course ⟨e.task.frame :: fs, e.world⟩ ⟨inner.task.frame :: fs', inner.world⟩ := by
  intro s
  refine ⟨?_, fun t later fuel op source ports e way => Session.course_encloses later way⟩
  intro f g fs gs u u' v v' lambda isFunction k args mode before closes after bound inside
  have proper : (⟨f :: fs, u⟩ : Instant).Proper s := before.proper ⟨Session.inOrder_start, nofun, nofun⟩
  have start : s.world.store.Whole := @Session.whole_start library environment files processId
  have idle := before.idle (Session.protects_start library environment files processId).idle
  have same : k.lambda = lambda := by
    rw [close_run] at closes
    cases (Prod.mk.inj closes).1
    rfl
  have fresh : (v.store.newScope []).2.InOrder ⟨v.store.scopes.size⟩ := Store.inOrder_fresh v.store
  have started : s.Course ⟨f :: fs, u'⟩ ⟨inside :: g :: gs, v'⟩ := after.trans (Session.course_call k mode gs bound)
  refine ⟨fun r => ?_, fun name fixed rest whole => ⟨?_, ?_⟩, fun fuel inner way above name unbound => ?_⟩
  · show (bindArguments ⟨v.store.scopes.size⟩ k.lambda args >>= fun _ => r.runBody k mode inside)
      { v with store := (v.store.newScope []).2 } = _
    rw [same]
    exact bind_run_ok bound
  · have unbound : v'.store.find? inside.localScope name = none := by
      refine (find?_bindArguments fresh.known fixed rest whole bound).trans ?_
      rw [Store.find?, Store.scope_newScope_self]
      rfl
    exact congrArg (Option.map Place.cell) (started.findPlain?_captured proper idle closes rfl unbound)
  · intro c _ hs w later writer _ reader _ mine yours value w'
    have here : s.Course ⟨[], s.world⟩ ⟨hs, w⟩ := (before.tail (.close s fs closes)).trans later
    exact Frame.readVariable_assigned (here.whole start) mine yours
  · have keeps : (Evaluation.mk fuel (.operation lambda.body inside) v').Keeps .anywhere :=
      ⟨trivial, World.carries_all (fun _ => trivial) _⟩
    obtain ⟨hs, enters⟩ := way.course (s := s) keeps (g :: gs)
    have there : s.Course ⟨f :: fs, u'⟩ ⟨inner.task.frame :: hs, inner.world⟩ := started.trans enters
    exact congrArg (Option.map Place.cell) (there.findPlain?_captured proper idle closes above unbound)

namespace Session

theorem Course.after {s : Session} {i : Instant} {w : World} (course : s.Course i ⟨[], w⟩) (code : String) :
    s.Course i ⟨[], (Session.after { s with world := w } code).world⟩ :=
  course.evaluate 60 (.interactive code) .standard

/-- After `x = a` a closure is made, and then `x` is deleted and bound anew.  A call of the closure finds the variable
that there was; the unit that calls it finds another one. -/
theorem lexical_scoping_stable_rebound :
    let s := bare
    let t := s.after "x = a"
    let f := s.frame (.interactive "") .standard ⟨t.world.store.scopes.size⟩
    let lambda : Lambda := ⟨["y"], none, true, .chunk [] default, default⟩
    let k : Closure :=
      ⟨t.entered.store.nextIdentity, lambda, ⟨t.entered.store.scopes.size⟩, .interactive "", false⟩
    let u' : World :=
      { t.entered with store := (t.entered.store.overlay f.upScope f.localScope).2.newIdentity.2 }
    let t' := Session.after { s with world := u' } "del x; x = b"
    let g := s.frame (.interactive "") .standard ⟨t'.world.store.scopes.size⟩
    let v := t'.entered
    let inside := g.inside k .command ⟨v.store.scopes.size⟩
    ∃ v', (∀ r : Runner, r.callFunction (.closure k) [.text "1"] .command g v = r.runBody k .command inside v') ∧
      inside.find? v'.store "" "x" = f.find? t.entered.store "" "x" ∧
      (f.findPlain? t.entered.store "x").isSome = true ∧
      g.findPlain? v.store "x" ≠ f.findPlain? t.entered.store "x" := by
  intro s t f lambda k u' t' g v inside
  have later : s.Later t := .unit .now 60 (.interactive "x = a") .standard
  have before : s.Course ⟨[], s.world⟩ ⟨[f], t.entered⟩ := later.course.tail (.unit t.world (.interactive "") .standard)
  have closes : close f lambda false t.entered = (.ok (.closure k), u') := close_run f lambda false t.entered
  have leaves : s.Proceeds ⟨[f], u'⟩ ⟨[], u'⟩ := Proceeds.leave f [] u'
  have done : s.Course ⟨[f], u'⟩ ⟨[], u'⟩ := .single leaves
  have rebound : s.Course ⟨[f], u'⟩ ⟨[], t'.world⟩ := Course.after done "del x; x = b"
  have after : s.Course ⟨[f], u'⟩ ⟨[g], v⟩ := rebound.tail (.unit t'.world (.interactive "") .standard)
  have bound : bindArguments ⟨v.store.scopes.size⟩ lambda [.text "1"] { v with store := (v.store.newScope []).2 } =
    (.ok (), _) := ran_of_isOk (by decide +kernel)
  obtain ⟨starts, stable, -⟩ :=
    (lexical_scoping_stable ⟨none, []⟩ ⟨[]⟩ default "1").1 .command before closes after bound
  exact ⟨_, starts, (stable "x" (by decide) nofun (by decide)).1, by decide +kernel, by decide +kernel⟩

end Session

end ValueShell
