/-
  An assignment is not lost.

  Every target of an assignment is resolved before the values are evaluated, and the writes go to what the targets
  stood for then.  The writes disturb one another only where they overlap (`Resolved.kept_writeAll`), so each value is
  there in the end.  But a reference finds it only if it still leads there: a value may have deleted or shadowed the
  name, a write may have changed what a bracket or a qualifier means, and what is made on the spot, as `$e:ls~` is, is
  never found again.  `Refers` says that a reference leads where the target did, and that is all that the law asks
  for.
-/
import ValueShell.Proofs.Destinations
import ValueShell.Proofs.ElementBlame

namespace ValueShell

open Eval

/-! ## Resolved targets -/

/-- A name that is resolved or declared stands for a variable that there is. -/
theorem known_resolveOrDeclare {f : Frame} {ns name : String} {p : Place} {w w' : World} (whole : w.store.Whole)
    (run : resolveOrDeclare f ns name w = (.ok p, w')) : (Destination.place p).Known w'.store := by
  rw [resolveOrDeclare, get_bind_run] at run
  intro c path inside
  cases found : f.find? w.store ns name with
  | some place =>
    rw [found] at run
    cases run
    cases p with
    | cell c' =>
      cases inside
      obtain ⟨cell, held⟩ := whole.find? found
      exact Option.isSome_of_eq_some held
    | transient v => exact nomatch inside
    | environment name => exact nomatch inside
  | none =>
    rw [found] at run
    dsimp only at run
    split at run
    · cases run
      cases inside
      exact w.store.isSome_cell?_declare name
    · exact nomatch run

namespace Runner

variable {r : Runner} {f : Frame}

/-- An element that is resolved is one of a variable that there is. -/
theorem known_resolveElement (hr : r.Contained) {e : ElementTarget} {d : Destination} {w w' : World}
    (whole : w.store.Whole) (run : r.resolveElement f e w = (.ok d, w')) : d.Known w'.store := by
  have evolves := (stays_resolveElement hr f e).evolves run
  intro c q inside
  cases found : f.find? w.store e.ns e.name with
  | none =>
    rw [resolveElement, get_bind_run, found] at run
    cases run
  | some base =>
    by_cases elements : base.HasElements
    · rw [resolveElement_of_elements found elements] at run
      obtain ⟨path, w₁, -, run⟩ := of_bind_run_ok run
      rw [get_bind_run] at run
      cases checked : (w₁.valueAt base).checkPath path with
      | error error =>
        rw [checked] at run
        cases run
      | ok =>
        rw [checked] at run
        cases run
        cases base with
        | cell c' =>
          cases inside
          obtain ⟨cell, held⟩ := whole.find? found
          obtain ⟨v, held⟩ := evolves.keepsCells c cell held
          exact Option.isSome_of_eq_some held
        | transient v => cases inside
        | environment name => exact absurd rfl (elements name)
    · obtain ⟨fault, fails⟩ := resolveElement_environment (r := r) found elements
      rw [run] at fails
      cases fails

/-- **A target that is resolved** stands for a variable that there is, if for any. -/
theorem known_resolveTarget (hr : r.Contained) {t : Target} {t' : Resolved} {w w' : World}
    (whole : w.store.Whole) (run : r.resolveTarget f t w = (.ok t', w')) :
    t'.target = t ∧ t'.destination.Known w'.store := by
  replace run := run_ok_of_located run
  cases t with
  | named ns name span =>
    obtain ⟨p, w₁, resolves, run⟩ := of_bind_run_ok run
    cases run
    exact ⟨rfl, known_resolveOrDeclare whole resolves⟩
  | element e =>
    obtain ⟨d, w₁, resolves, run⟩ := of_bind_run_ok run
    cases run
    exact ⟨rfl, known_resolveElement hr whole resolves⟩

theorem known_resolveEach (hr : r.Contained) {ts : List Target} {rs : List Resolved} {w w' : World}
    (whole : w.store.Whole) (run : r.resolveEach f ts w = (.ok rs, w')) :
    rs.map Resolved.target = ts ∧ ∀ t ∈ rs, t.destination.Known w'.store := by
  induction ts generalizing rs w with
  | nil =>
    cases run
    exact ⟨rfl, nofun⟩
  | cons t ts ih =>
    obtain ⟨first, w₁, here, run⟩ := of_bind_run_ok run
    obtain ⟨rest, w₂, later, run⟩ := of_bind_run_ok run
    cases run
    have evolves := (stays_resolveTarget hr f t).evolves here
    obtain ⟨rfl, known⟩ := known_resolveTarget hr whole here
    obtain ⟨names, others⟩ := ih (evolves.whole whole) later
    refine ⟨congrArg _ names, List.forall_mem_cons.mpr ⟨?_, others⟩⟩
    exact known.later ((stays_resolveEach hr f ts).evolves later)

end Runner

/-! ## References -/

/-- **A reference leads where a target did.**  Its name stands for the same place, and its brackets have the keys that
the brackets of the target had, one each. -/
inductive Refers (r : Runner) (f : Frame) : Resolved → Expr → World → World → Prop
  | named {ns name : String} {place : Place} {span span' : Span} {w : World}
      (found : f.find? w.store ns name = some place) :
      Refers r f ⟨.place place, .named ns name span⟩ (.reference ⟨false, ns, name⟩ span') w w
  | element {e : ElementTarget} {c : CellId} {path : List Value} {brackets : List IndexBracket} {span span' : Span}
      {w w' : World} (found : f.find? w.store e.ns e.name = some (.cell c))
      (yields : r.Yields f brackets path w w') :
      Refers r f ⟨.element c path, .element e⟩ (.index (.reference ⟨false, e.ns, e.name⟩ span) brackets span') w w'

namespace Runner

variable {f : Frame} {w w' : World}

/-- A reference without brackets has the value of its place, whatever is left to run with. -/
theorem evaluate_reference (r : Runner) {ns name : String} {place : Place}
    (found : f.find? w.store ns name = some place) (span : Span) :
    r.evaluate (.reference ⟨false, ns, name⟩ span) f w = (.ok [w.valueAt place], w) := by
  refine located_run_ok ?_
  show (readVariable f ns name >>= fun v => pure [v]) w = _
  rw [readVariable, bind_assoc, get_bind_run, found]
  rfl

/-- One key of one value is one element. -/
theorem indexAll_one {r : Runner} {b : IndexBracket} {v key child : Value}
    (one : r.exprs f b.items w = (.ok [key], w')) (down : v.index key = .ok child) :
    r.indexAll f [v] b w = (.ok [child], w') := by
  rw [indexAll, bind_run_ok one]
  simp only [List.mapM_cons, List.mapM_nil, down]
  rfl

/-- **Brackets with one key each read the element at the path.** -/
theorem Yields.indexed {r : Runner} {brackets : List IndexBracket} {path : List Value}
    (yields : r.Yields f brackets path w w') {v held : Value} {level : Nat}
    (there : Value.getPathFrom level v path = .ok held) :
    brackets.foldlM (r.indexAll f) [v] w = (.ok [held], w') := by
  induction yields generalizing v level with
  | nil =>
    cases there
    rfl
  | @cons b bs key keys w w₁ w₂ one rest ih =>
    obtain ⟨child, down, there⟩ := Except.of_bind_ok there
    rw [List.foldlM_cons, bind_run_ok (indexAll_one one (Value.blame_ok down))]
    exact ih there

/-- **A reference that leads where a target did reads what is there.** -/
theorem evaluate_refers {t : Resolved} {e : Expr} {fuel : Nat} (refers : Refers (ofFuel (fuel + 1)) f t e w w')
    {v : Value} (there : t.destination.read w = .ok v) : (ofFuel (fuel + 1)).evaluate e f w = (.ok [v], w') := by
  cases refers with
  | named found =>
    cases there
    exact evaluate_reference _ found _
  | @element e c path brackets span span' _ _ found yields =>
    have head : (ofFuel (fuel + 1)).expr (.reference ⟨false, e.ns, e.name⟩ span) f w =
        (.ok [w.store.read c], w) := evaluate_reference (ofFuel fuel) found span
    refine located_run_ok ?_
    show ((ofFuel (fuel + 1)).expr _ f >>= fun heads => brackets.foldlM _ heads) w = _
    rw [bind_run_ok head]
    exact yields.indexed there

end Runner

namespace Session

/-- **A successful assignment is not lost.**  Take any moment of a session, and any assignment that ends without a
failure there.  Every target gets its value, a rest target the list of those that are left; and unless a later target
overlaps it, any reference that then leads where the target did has that value: its printed text in the environment,
and the value itself in a variable. -/
theorem assigned_values_kept {library : Library} {environment : Environment} {files : FileTree}
    {processId : String} {f : Frame} {w w' : World}
    (moment : (start library environment files processId).Moment f w) (fuel : Nat) {targets : Targets}
    {values : List Expr} {span : Span}
    (run : (Runner.ofFuel fuel).execute (.assign targets values span) f w = (.ok (), w')) :
    ∃ resolved found w₁ w₂, (Runner.ofFuel fuel).resolveTargets f targets w = (.ok resolved, w₁) ∧
      (Runner.ofFuel fuel).exprs f values w₁ = (.ok found, w₂) ∧ resolved.Takes found.length ∧
      (resolved.pairs found).map (fun p => p.1.target) = targets.all ∧
      ∀ earlier t v later, resolved.pairs found = earlier ++ (t, v) :: later → t.destination.Keeps →
        (∀ p ∈ later, ¬p.1.destination.Overlaps w'.store t.destination) →
        ∀ e n w'', Refers (Runner.ofFuel (n + 1)) f t e w' w'' →
          (Runner.ofFuel (n + 1)).evaluate e f w' = (.ok [t.destination.shown v], w'') := by
  have hr := Runner.ofFuel_contained fuel
  have run : (Runner.ofFuel fuel).assign targets values f w = (.ok (), w') := run_ok_of_located run
  rw [Runner.assign_eq] at run
  obtain ⟨resolved, w₁, resolves, run⟩ := of_bind_run_ok run
  obtain ⟨found, w₂, evaluates, run⟩ := of_bind_run_ok run
  by_cases takes : resolved.Takes found.length
  case neg =>
    rw [if_neg takes] at run
    exact nomatch run
  rw [if_pos takes] at run
  have each := Runner.resolveEach_run (Runner.ofFuel fuel) f targets w
  rw [resolves] at each
  obtain ⟨names, known⟩ := Runner.known_resolveEach hr moment.whole each
  have evaluating := (Runner.stays_exprs (fun e => hr.expr e f) values).evolves evaluates
  have paired := ResolvedTargets.pairs_fst takes
  refine ⟨resolved, found, w₁, w₂, resolves, evaluates, takes, ?_, ?_⟩
  · rw [← names, ← paired, List.map_map]
    rfl
  · intro earlier t v later split keeps aside e n w'' refers
    -- a variable that a target was resolved to outlives the values
    have there (p : Resolved × Value) (hp : p ∈ resolved.pairs found) : p.1.destination.Known w₂.store :=
      (known p.1 (paired ▸ List.mem_map_of_mem hp)).later evaluating
    rw [split] at run there
    exact Runner.evaluate_refers refers (Resolved.kept_writeAll run there keeps aside)

theorem run_of_toBool {x : Except Stop Unit × World} (good : x.1.toBool = true) :
    x.1 = .ok () ∧ x = (.ok (), x.2) := by
  obtain ⟨stop | u, w⟩ := x
  · exact nomatch good
  · exact ⟨rfl, rfl⟩

/-- In `{x[0],x[-1]} = b c` the list has two items, so that neither target is the other, and `$x[0]` is `b`. -/
theorem assigned_values_kept_two_items :
    let s := start ⟨none, []⟩ ⟨[]⟩ default "1"
    let t := s.bindGlobal "x" (.list [.text "a", .text "a"])
    let f := t.frame (.interactive "\x7bx[0],x[-1]\x7d = b c") .standard ⟨t.world.store.scopes.size⟩
    let literal (text : String) (start stop : Nat) : Expr := .literal text ⟨start, stop⟩
    let first : ElementTarget := ⟨"", "x", [⟨[literal "0" 3 4], ⟨2, 5⟩⟩], ⟨1, 5⟩, [2, 5]⟩
    let second : ElementTarget := ⟨"", "x", [⟨[literal "-1" 8 10], ⟨7, 11⟩⟩], ⟨6, 11⟩, [7, 11]⟩
    let op : Operation :=
      .assign ⟨[.element first, .element second], none, ⟨0, 12⟩⟩ [literal "b" 15 16, literal "c" 17 18] ⟨0, 18⟩
    let ended := (Runner.ofFuel 5).execute op f t.entered
    let reference : Expr := .index (.reference ⟨false, "", "x"⟩ ⟨0, 2⟩) [⟨[literal "0" 3 4], ⟨2, 5⟩⟩] ⟨0, 5⟩
    ended.1 = .ok () ∧ (Runner.ofFuel 5).evaluate reference f ended.2 = (.ok [.text "b"], ended.2) := by
  intro s t f literal first second op ended reference
  let c : CellId := ⟨s.world.store.cells.size⟩
  have known : s.globals.index < s.world.store.scopes.size := by decide +kernel
  have found : f.find? t.entered.store "" "x" = some (.cell c) := find?_bindGlobal known ..
  have held : t.entered.valueAt (.cell c) = .list [.text "a", .text "a"] := s.valueAt_bindGlobal ..
  have resolves (e : ElementTarget) (key : String) (named : e.ns = "" ∧ e.name = "x")
      (yields : (Runner.ofFuel 5).Yields f e.brackets [.text key] t.entered t.entered) :
      (Runner.ofFuel 5).resolveTarget f (.element e) t.entered =
        (.ok ⟨.element c [.text key], .element e⟩, t.entered) := by
    have here : f.find? t.entered.store e.ns e.name = some (.cell c) := by
      rw [named.1, named.2]
      exact found
    have run := Runner.resolveElement_run here (fun _ same => by cases same) yields
    rw [held] at run
    exact Runner.resolveTarget_of_resolved run
  have each : (Runner.ofFuel 5).resolveEach f [.element first, .element second] t.entered =
      (.ok [⟨.element c [.text "0"], .element first⟩, ⟨.element c [.text "-1"], .element second⟩], t.entered) := by
    rw [Runner.resolveEach, bind_run_ok (resolves first "0" ⟨rfl, rfl⟩ (.cons rfl .nil)), Runner.resolveEach,
      bind_assoc, bind_run_ok (resolves second "-1" ⟨rfl, rfl⟩ (.cons rfl .nil))]
    rfl
  obtain ⟨outcome, succeeds⟩ := run_of_toBool (x := ended) (by decide +kernel)
  obtain ⟨resolved, values, w₁, w₂, targets, evaluated, -, -, kept⟩ :=
    assigned_values_kept (.unit (.global .now "x" (.list [.text "a", .text "a"])) _ _) 5 succeeds
  rw [Runner.resolveTargets, bind_run_ok each] at targets
  cases targets
  cases evaluated
  have there : f.find? ended.2.store "" "x" = some (.cell c) := by
    have here : f.findPlain? ended.2.store "x" = some c := by decide +kernel
    show (f.findPlain? ended.2.store "x").map Place.cell = _
    rw [here]
    rfl
  have key (w : World) : (Runner.ofFuel 5).exprs f [literal "0" 3 4] w = (.ok [.text "0"], w) := rfl
  refine ⟨outcome, kept [] _ _ _ rfl (fun _ same => by cases same) (fun p hp => ?_) reference 4 ended.2
    (.element there (.cons (key ended.2) .nil))⟩
  cases List.mem_singleton.mp hp
  rintro (⟨name, same, -⟩ | ⟨c', p, q, here, there, meet⟩)
  · cases same
  · cases here
    cases there
    exact meet (.apart (by decide +kernel))

/-- A reference need not lead where the target did.  A value may have deleted the name or put another variable before
it, a later write may have changed the key that a bracket reads, and what is assigned to a command of the system is
nowhere. -/
theorem assigned_values_lost :
    let deleted := "x = 1; x = (del x; put 2); y = $x"
    let shadowed := "x = 1; y = 2; \x7b x = (local:x = 3; put 4); y = $x \x7d"
    let moved := "i = 0; x = [a b]; \x7bx[$i],i\x7d = c 1; y = $x[$i]"
    let command := "e:ls~ = $put~; y = $e:ls~"
    let held (code : String) := (bare.after code).globalValues.map fun (name, v) => (name, v.repr)
    exceptionOf deleted =
        some ⟨.variableNotFound "x", some ⟨.interactive deleted, ⟨31, 33⟩, "top"⟩⟩ ∧
      held shadowed = [("x", "4"), ("y", "3")] ∧
      held moved = [("i", "1"), ("x", "[c b]"), ("y", "b")] ∧
      held command = [("y", "<external ls>")] := by
  decide +kernel

end Session

end ValueShell
