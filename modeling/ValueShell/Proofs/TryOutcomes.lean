/-
  Which parts of a `try` are entered, and what becomes of how they end.

  Four parts with three kinds of outcome each, and an exception that has to be stored before the
  `except` part can run: the combinations are many, but they are seven courses (`TryCourse`), told
  apart by how the body ends.  A course says what the parts before the `finally` part end with and
  the world they leave.  There is one for every `try` (`tryCourse_iff`), and everything else follows:
  the parts that are entered, the `finally` part among them on every course, and the outcome.

  A part is ENTERED when its body is made to a closure and called.  That the form runs this call, and
  no other call of that label, is said with `Evaluation.Runs`; the call makes the scope of its
  variables, so to enter a part again would be another run, in another world.
-/
import ValueShell.Proofs.KeptAssignments
import ValueShell.Proofs.SignalBoundaries

namespace ValueShell

open Eval Conduct

/-! ## Parts -/

/-- A call of the body of a special form, labelled after the part of the form that it is. -/
def Task.IsPart (t : Task) (label : String) : Prop :=
  ∃ callable f, t = .call callable [] .block f ∧ f.label = label

namespace Evaluation

/-- **A part of a special form**, entered in the world `v`: the call of the closure that its body is
made to there. -/
def part (fuel : Nat) (f : Frame) (label : String) (body : Lambda) (v : World) : Evaluation :=
  let (captured, s) := v.store.overlay f.upScope f.localScope
  let (id, s) := s.newIdentity
  ⟨fuel, .call (.closure ⟨id, body, captured, f.source, false⟩) [] .block (f.labelled label),
    { v with store := s }⟩

/-- The evaluation enters a part of that label. -/
def Enters (e : Evaluation) (label : String) (inner : Evaluation) : Prop :=
  e.Runs inner ∧ inner.task.IsPart label

/-- It ends normally. -/
def Succeeds (e : Evaluation) : Prop := e.outcome.1 = .ok []

end Evaluation

namespace Runner

/-- Stores an exception in the variable of a handler, if it has one. -/
def storing (r : Runner) (handler : Handler) (x : Exception) (f : Frame) : Eval Unit :=
  match handler.target with
  | none => return ()
  | some target => do
    let inside := f.labelled "try except"
    let place ← r.onlyTarget inside .shouldBeOneVariable target
    let id ← updateStore Store.newIdentity
    place.write (.exception id x) inside

/-- The `except` part first stores the exception, and then runs its body. -/
theorem handle_eq (r : Runner) (handler : Handler) (x : Exception) (f : Frame) :
    r.handle handler x f = (do
      r.storing handler x f
      r.block handler.body "try except" f) := by
  unfold handle storing
  cases handler.target with
  | none => rfl
  | some target => simp only [bind_assoc]

/-- **The target of a handler has the exception**: it is resolved, the exception is written to where it leads, and
nothing else is changed; and that is what is read there, unless it is a place that keeps nothing. -/
def Stores (r : Runner) (target : Targets) (x : Exception) (f : Frame) (u v : World) : Prop :=
  ∃ place u', r.onlyTarget (f.labelled "try except") .shouldBeOneVariable target u = (.ok place, u') ∧
    let value : Value := .exception u'.store.newIdentity.1 x
    place.destination.Wrote value { u' with store := u'.store.newIdentity.2 } v ∧
      (place.destination.Keeps → place.destination.read v = .ok (place.destination.shown value))

section Storing

variable {r : Runner} {f : Frame} {u v : World}

/-- The only target stands for a variable that there is, if for any. -/
theorem known_onlyTarget (hr : r.Contained) {otherwise : Fault} {target : Targets} {place : Resolved}
    (whole : u.store.Whole) (run : r.onlyTarget f otherwise target u = (.ok place, v)) :
    place.destination.Known v.store := by
  obtain ⟨resolved, u', resolves, run⟩ := of_bind_run_ok run
  have each := resolveEach_run r f target u
  rw [resolves] at each
  obtain ⟨-, known⟩ := known_resolveEach hr whole each
  rcases resolved with ⟨_ | ⟨only, _ | _⟩, _ | rest⟩
  case cons.nil.none =>
    cases run
    exact known _ (List.mem_singleton.mpr rfl)
  all_goals exact nomatch run

/-- **What was stored is there.** -/
theorem stores_of_storing (hr : r.Contained) {handler : Handler} {target : Targets} {x : Exception}
    (named : handler.target = some target) (whole : u.store.Whole)
    (stored : r.storing handler x f u = (.ok (), v)) : r.Stores target x f u v := by
  rw [storing, named] at stored
  obtain ⟨place, u', resolves, stored⟩ := of_bind_run_ok stored
  obtain ⟨id, u'', made, written⟩ := of_bind_run_ok stored
  cases made
  have known : place.destination.Known u'.store := known_onlyTarget hr whole resolves
  have wrote := Destination.wrote_of_write (w := { u' with store := u'.store.newIdentity.2 }) known
    (Resolved.write_ok written)
  exact ⟨place, u', resolves, wrote, wrote.read_self⟩

end Storing

end Runner

namespace Evaluation

/-- What is seen of a rule without a result: how it ended, and the world it left. -/
def seen (ran : Except Stop Unit × World) : Except Stop (List Value) × World :=
  (ran.1.map fun _ => [], ran.2)

section Part

variable (fuel : Nat) (f : Frame) (label : String) (body : Lambda) (v : World)

/-- A part is the body of its form, closed and called. -/
theorem close_part : ∃ callable,
    close (f.labelled label) body false v = (.ok callable, (part fuel f label body v).world) ∧
      (part fuel f label body v).task = .call callable [] .block (f.labelled label) :=
  ⟨_, rfl, rfl⟩

/-- A part ends as its body does, called as a block. -/
theorem part_outcome :
    (part fuel f label body v).outcome = seen ((Runner.ofFuel fuel).block body label f v) := by
  obtain ⟨callable, made, task⟩ := close_part fuel f label body v
  rw [Runner.block, bind_run_ok made, outcome, task]
  exact run_call ..

variable {fuel f label body v}

/-- A part leaves whole what it finds whole. -/
theorem whole_part (whole : v.store.Whole) : (part fuel f label body v).outcome.2.store.Whole := by
  rw [part_outcome]
  exact (Runner.stays_block (Runner.ofFuel_contained fuel) body label f none v).whole whole

/-- A part that succeeds lets its form go on. -/
theorem block_of_succeeds (h : (part fuel f label body v).Succeeds) :
    (Runner.ofFuel fuel).block body label f v = (.ok (), (part fuel f label body v).outcome.2) := by
  unfold Succeeds at h
  rw [part_outcome] at h ⊢
  rcases run : (Runner.ofFuel fuel).block body label f v with ⟨stop | _, v'⟩
  · rw [run] at h
    exact nomatch h
  · rfl

/-- A part that does not, ends its form. -/
theorem block_of_error {stop : Stop} (h : (part fuel f label body v).outcome.1 = .error stop) :
    (Runner.ofFuel fuel).block body label f v =
      (.error stop, (part fuel f label body v).outcome.2) := by
  rw [part_outcome] at h ⊢
  rcases run : (Runner.ofFuel fuel).block body label f v with ⟨stop' | _, v'⟩
  · rw [run] at h
    cases h
    rfl
  · rw [run] at h
    exact nomatch h

variable (fuel f label body v)

/-- It is one or the other. -/
theorem succeeds_or_stops :
    (part fuel f label body v).Succeeds ∨ ∃ stop, (part fuel f label body v).outcome.1 = .error stop := by
  unfold Succeeds
  rw [part_outcome]
  rcases (Runner.ofFuel fuel).block body label f v with ⟨stop | _, v'⟩
  · exact .inr ⟨stop, rfl⟩
  · exact .inl rfl

/-- What running a body comes to is the part. -/
theorem comes_part {w : World} {t : Task} :
    Runner.Comes (fun r => r.block body label f) (.ofFuel fuel) v t w ↔
      t = (part fuel f label body v).task ∧ w = (part fuel f label body v).world := by
  obtain ⟨callable, made, task⟩ := close_part fuel f label body v
  have follows : anything.FollowsIn (.ofFuel fuel) _ (fun _ => close (f.labelled label) body false) _ v :=
    follows_body anything body (f.labelled label) v (World.carries_all (fun _ => trivial) v)
  rw [task]
  constructor
  · intro comes
    obtain comes | ⟨callable, w', run, comes⟩ := follows.comes_bind comes
    · exact (not_comes_const _ comes).elim
    · rw [made] at run
      cases run
      exact comes_call.mp comes
  · intro same
    exact follows.comes_second made (comes_call.mpr same)

end Part

/-! ## Courses -/

/-- **How the parts of a `try` go that come before the `finally` part.**  It begins in the world `w` with the
body.  The result is that of the part entered last; an exception that cannot be stored is lost to the
failure that says so. -/
inductive TryCourse (fuel : Nat) (f : Frame) (body : Lambda) (handler : Option Handler)
    (otherwise : Option Lambda) (w : World) : Except Stop (List Value) × World → Prop
  | succeeded (ok : (part fuel f "try body" body w).Succeeds) (last : otherwise = none) :
      TryCourse fuel f body handler otherwise w (part fuel f "try body" body w).outcome
  | otherwise {l : Lambda} (ok : (part fuel f "try body" body w).Succeeds) (next : otherwise = some l) :
      TryCourse fuel f body handler otherwise w
        (part fuel f "try else" l (part fuel f "try body" body w).outcome.2).outcome
  | uncaught {x : Exception} (fails : (part fuel f "try body" body w).EndsWith (.exception x))
      (last : handler = none) :
      TryCourse fuel f body handler otherwise w (part fuel f "try body" body w).outcome
  | refused {h : Handler} {x : Exception} {stop : Stop} {v : World}
      (fails : (part fuel f "try body" body w).EndsWith (.exception x)) (next : handler = some h)
      (stored : (Runner.ofFuel fuel).storing h x f (part fuel f "try body" body w).outcome.2 =
        (.error stop, v)) :
      TryCourse fuel f body handler otherwise w (.error stop, v)
  | handled {h : Handler} {x : Exception} {v : World}
      (fails : (part fuel f "try body" body w).EndsWith (.exception x)) (next : handler = some h)
      (stored : (Runner.ofFuel fuel).storing h x f (part fuel f "try body" body w).outcome.2 =
        (.ok (), v)) :
      TryCourse fuel f body handler otherwise w (part fuel f "try except" h.body v).outcome
  | passing {s : Signal} (raises : (part fuel f "try body" body w).EndsWith (.signal s)) :
      TryCourse fuel f body handler otherwise w (part fuel f "try body" body w).outcome
  | cut (cut : (part fuel f "try body" body w).IsCutShort) :
      TryCourse fuel f body handler otherwise w (part fuel f "try body" body w).outcome

section Courses

variable {fuel : Nat} {f : Frame} {body : Lambda} {handler : Option Handler} {otherwise : Option Lambda}
  {w : World}

/-- What comes after the body, by how that ended. -/
theorem guarded_of_succeeds (ok : (part fuel f "try body" body w).Succeeds) :
    (Runner.ofFuel fuel).guarded body handler otherwise f w =
      (Runner.ofFuel fuel).optionalBlock otherwise "try else" f
        (part fuel f "try body" body w).outcome.2 := by
  rw [Runner.guarded, bind_run_ok (settle_ok (block_of_succeeds ok))]

/-- An exception of the body is handled. -/
theorem guarded_of_fails {h : Handler} {x : Exception}
    (fails : (part fuel f "try body" body w).EndsWith (.exception x)) :
    (Runner.ofFuel fuel).guarded body (some h) otherwise f w =
      (Runner.ofFuel fuel).handle h x f (part fuel f "try body" body w).outcome.2 := by
  rw [Runner.guarded, bind_run_ok (settle_unwind (block_of_error fails))]

/-- What is not handled is passed on. -/
theorem guarded_of_unhandled {stop : Stop} (ends : (part fuel f "try body" body w).outcome.1 = .error stop)
    (unhandled : ∀ x, stop = .unwind (.exception x) → handler = none) :
    (Runner.ofFuel fuel).guarded body handler otherwise f w =
      (.error stop, (part fuel f "try body" body w).outcome.2) := by
  have run := block_of_error ends
  by_cases final : stop.Final
  · rw [Runner.guarded, bind_run, settle_final final run]
  · obtain ⟨u, rfl⟩ := stop.unwind_of_not_final final
    rw [Runner.guarded, bind_run_ok (settle_unwind run)]
    cases u with
    | signal s => rfl
    | exception x =>
      rw [unhandled x rfl]
      rfl

/-- A `try` runs as a course says. -/
theorem TryCourse.eq {o : Except Stop (List Value) × World}
    (course : TryCourse fuel f body handler otherwise w o) :
    o = seen ((Runner.ofFuel fuel).guarded body handler otherwise f w) := by
  cases course with
  | succeeded ok last =>
    rw [guarded_of_succeeds ok, last]
    exact Prod.ext ok rfl
  | otherwise ok next =>
    rw [guarded_of_succeeds ok, next]
    exact part_outcome ..
  | uncaught fails last =>
    rw [guarded_of_unhandled fails fun _ _ => last]
    exact Prod.ext fails rfl
  | refused fails next stored =>
    rw [next, guarded_of_fails fails, Runner.handle_eq, bind_run, stored]
    rfl
  | handled fails next stored =>
    rw [next, guarded_of_fails fails, Runner.handle_eq, bind_run_ok stored]
    exact part_outcome ..
  | passing raises =>
    rw [guarded_of_unhandled raises fun _ same => nomatch same]
    exact Prod.ext raises rfl
  | cut cut =>
    obtain ⟨stop, ends, final⟩ := cut
    rw [guarded_of_unhandled ends fun x same => (same ▸ final : Stop.Final (.unwind _)).elim]
    exact Prod.ext ends rfl

/-- Every `try` takes some course. -/
theorem exists_tryCourse (fuel : Nat) (f : Frame) (body : Lambda) (handler : Option Handler)
    (otherwise : Option Lambda) (w : World) : ∃ o, TryCourse fuel f body handler otherwise w o := by
  obtain ok | ⟨stop, ends⟩ := succeeds_or_stops fuel f "try body" body w
  · cases next : otherwise with
    | none => exact ⟨_, .succeeded ok rfl⟩
    | some l => exact ⟨_, .otherwise ok rfl⟩
  · by_cases final : stop.Final
    · exact ⟨_, .cut ⟨stop, ends, final⟩⟩
    · obtain ⟨u, rfl⟩ := stop.unwind_of_not_final final
      cases u with
      | signal s => exact ⟨_, .passing ends⟩
      | exception x =>
        cases next : handler with
        | none => exact ⟨_, .uncaught ends rfl⟩
        | some h =>
          rcases stored : (Runner.ofFuel fuel).storing h x f (part fuel f "try body" body w).outcome.2
            with ⟨stop | _, v⟩
          · exact ⟨_, .refused ends rfl stored⟩
          · exact ⟨_, .handled ends rfl stored⟩

/-- **Every `try` takes one course.** -/
theorem tryCourse_iff {o : Except Stop (List Value) × World} :
    TryCourse fuel f body handler otherwise w o ↔
      o = seen ((Runner.ofFuel fuel).guarded body handler otherwise f w) := by
  constructor
  · exact TryCourse.eq
  · intro same
    obtain ⟨o', course⟩ := exists_tryCourse fuel f body handler otherwise w
    rw [same, ← course.eq]
    exact course

/-! ## Entered parts -/

/-- What came before the `finally` part is not the end of everything. -/
def Continues (o : Except Stop (List Value) × World) : Prop := ∀ stop, o.1 = .error stop → ¬stop.Final

/-- **The parts of a `try` that are entered.** -/
inductive TryPart (fuel : Nat) (f : Frame) (body : Lambda) (handler : Option Handler)
    (otherwise finalizer : Option Lambda) (w : World) : Evaluation → Prop
  | body : TryPart fuel f body handler otherwise finalizer w (part fuel f "try body" body w)
  | otherwise {l : Lambda} (ok : (part fuel f "try body" body w).Succeeds) (next : otherwise = some l) :
      TryPart fuel f body handler otherwise finalizer w
        (part fuel f "try else" l (part fuel f "try body" body w).outcome.2)
  | handler {h : Handler} {x : Exception} {v : World}
      (fails : (part fuel f "try body" body w).EndsWith (.exception x)) (next : handler = some h)
      (stored : (Runner.ofFuel fuel).storing h x f (part fuel f "try body" body w).outcome.2 =
        (.ok (), v)) :
      TryPart fuel f body handler otherwise finalizer w (part fuel f "try except" h.body v)
  | finalizer {l : Lambda} {o : Except Stop (List Value) × World} (last : finalizer = some l)
      (course : TryCourse fuel f body handler otherwise w o) (goesOn : Continues o) :
      TryPart fuel f body handler otherwise finalizer w (part fuel f "try finally" l o.2)

section Entered

variable {finalizer : Option Lambda} {label : String} {l : Lambda} {t : Task} {u v : World}

theorem lawful_ofFuel_anything (fuel : Nat) : anything.Lawful (.ofFuel fuel) :=
  lawful_of_true (fun _ => trivial) ⟨fuel, rfl⟩

theorem follows_part : anything.FollowsIn (.ofFuel fuel) anything.Own
    (fun r => r.block l label f) (fun _ => True) v :=
  follows_block (lawful_ofFuel_anything fuel) (fun _ _ => trivial) v
    (World.carries_all (fun _ => trivial) v)

theorem follows_course : anything.FollowsIn (.ofFuel fuel) anything.Own
    (fun r => r.guarded body handler otherwise f) (fun _ => True) w := by
  refine follows_guarded (lawful_ofFuel_anything fuel) (fun _ _ => trivial) (fun h _ => ?_)
    (fun _ _ _ _ => trivial) (fun _ _ _ => trivial) w (World.carries_all (fun _ => trivial) w)
  exact ⟨fun _ _ t _ => admitsTarget_anything t, fun _ _ => trivial⟩

/-- To store an exception, nothing but expressions are evaluated. -/
theorem follows_storing {h : Handler} {x : Exception} : expressions.FollowsIn (.ofFuel fuel)
    expressions.Own (fun r => r.storing h x f) (fun _ => True) v := by
  have lawful : expressions.Lawful (.ofFuel fuel) :=
    lawful_of_true (fun _ => trivial) ⟨fuel, rfl⟩
  refine (?_ : expressions.Follows _ _ _ _) v (World.carries_all (fun _ => trivial) v)
  unfold Runner.storing
  cases h.target with
  | none => exact follows_pure trivial
  | some target =>
    refine follows_bind (follows_onlyTarget lawful _ fun x _ =>
      admitsTarget_expressions x) fun place _ => ?_
    exact follows_then follows_newIdentity fun id =>
      follows_write (admitsTarget_expressions _) .exception

/-- The call of a part that may be missing. -/
theorem comes_optional {l? : Option Lambda} :
    Runner.Comes (fun r => r.optionalBlock l? label f) (.ofFuel fuel) u t v ↔
      ∃ l, l? = some l ∧ t = (part fuel f label l u).task ∧ v = (part fuel f label l u).world := by
  cases l? with
  | none => exact ⟨fun comes => (not_comes_const _ comes).elim, nofun⟩
  | some l =>
    refine (comes_part fuel f label l u).trans ⟨fun same => ⟨l, rfl, same⟩, ?_⟩
    rintro ⟨l', same, here⟩
    cases same
    exact here

/-- The call of an `except` part, after the exception is stored. -/
theorem comes_handle {h : Handler} {x : Exception} (call : ∀ e g, t ≠ .expr e g) :
    Runner.Comes (fun r => r.handle h x f) (.ofFuel fuel) u t v ↔
      ∃ u', (Runner.ofFuel fuel).storing h x f u = (.ok (), u') ∧
        t = (part fuel f "try except" h.body u').task ∧ v = (part fuel f "try except" h.body u').world := by
  simp only [Runner.handle_eq]
  constructor
  · intro comes
    obtain comes | ⟨_, u', stored, comes⟩ := follows_storing.comes_bind comes
    · obtain ⟨e, g, same⟩ := (follows_storing.admitted t v comes).1
      exact absurd same (call e g)
    · exact ⟨u', stored, (comes_part ..).mp comes⟩
  · rintro ⟨u', stored, same⟩
    exact follows_storing.comes_second stored ((comes_part ..).mpr same)

/-- The calls before the `finally` part. -/
theorem comes_guarded (call : ∀ e g, t ≠ .expr e g) :
    Runner.Comes (fun r => r.guarded body handler otherwise f) (.ofFuel fuel) w t v ↔
      TryPart fuel f body handler otherwise none w ⟨fuel, t, v⟩ := by
  have first : anything.FollowsIn (.ofFuel fuel) anything.Own (fun r => r.block body "try body" f)
      (fun _ => True) w := follows_part
  have settled := first.settle
  constructor
  · intro comes
    obtain comes | ⟨res, w', run, comes⟩ := settled.comes_bind comes
    · obtain ⟨rfl, rfl⟩ := (comes_part ..).mp (follows_part.comes_settle.mp comes)
      exact .body
    · obtain ok | ⟨stop, ends⟩ := succeeds_or_stops fuel f "try body" body w
      · rw [settle_ok (block_of_succeeds ok)] at run
        cases run
        obtain ⟨l, next, rfl, rfl⟩ := comes_optional.mp comes
        exact .otherwise ok next
      · by_cases final : stop.Final
        · rw [settle_final final (block_of_error ends)] at run
          exact nomatch run
        · obtain ⟨u, rfl⟩ := stop.unwind_of_not_final final
          rw [settle_unwind (block_of_error ends)] at run
          cases run
          cases u with
          | signal s => exact (not_comes_const _ comes).elim
          | exception x =>
            cases next : handler with
            | none =>
              subst next
              exact (not_comes_const _ comes).elim
            | some h =>
              subst next
              obtain ⟨u', stored, rfl, rfl⟩ := (comes_handle call).mp comes
              exact .handler ends rfl stored
  · intro entered
    generalize here : (⟨fuel, t, v⟩ : Evaluation) = inner at entered
    have task := congrArg Evaluation.task here
    have world := congrArg Evaluation.world here
    cases entered with
    | body => exact comes_first (follows_part.comes_settle.mpr ((comes_part ..).mpr ⟨task, world⟩))
    | otherwise ok next =>
      refine settled.comes_second (settle_ok (block_of_succeeds ok)) ?_
      exact comes_optional.mpr ⟨_, next, task, world⟩
    | handler fails next stored =>
      subst next
      refine settled.comes_second (settle_unwind (block_of_error fails)) ?_
      exact (comes_handle call).mpr ⟨_, stored, task, world⟩
    | finalizer last => exact nomatch last

/-- A course that goes on is what the `finally` part sees. -/
theorem TryCourse.settled {o : Except Stop (List Value) × World}
    (course : TryCourse fuel f body handler otherwise w o) (goesOn : Continues o) :
    ∃ res, Eval.settle ((Runner.ofFuel fuel).guarded body handler otherwise f) w = (.ok res, o.2) ∧
      o.1 = (res.mapError .unwind).map fun _ => [] := by
  have same := course.eq
  subst same
  obtain ⟨res, w', here, run⟩ | ⟨stop, w', final, -, run⟩ :=
    settle_cases ((Runner.ofFuel fuel).guarded body handler otherwise f) w
  · rw [run]
    exact ⟨res, here, rfl⟩
  · refine absurd final (goesOn stop ?_)
    rw [run]
    rfl

/-- What the guarded part came to is one of the courses. -/
theorem tryCourse_of_settle {res : Except Unwind Unit}
    (settled : Eval.settle ((Runner.ofFuel fuel).guarded body handler otherwise f) w = (.ok res, v)) :
    TryCourse fuel f body handler otherwise w ((res.mapError .unwind).map fun _ => [], v) ∧
      Continues ((res.mapError .unwind).map fun _ => [], v) := by
  obtain ⟨res', w', here, run⟩ | ⟨stop, w', -, here, -⟩ :=
    settle_cases ((Runner.ofFuel fuel).guarded body handler otherwise f) w
  · rw [settled] at here
    cases here
    refine ⟨tryCourse_iff.mpr (congrArg seen run).symm, fun stop ends => ?_⟩
    cases res with
    | ok => exact nomatch ends
    | error u =>
      cases ends
      exact id
  · rw [settled] at here
    exact nomatch here

/-- A `finally` part comes after the parts that there are without it. -/
theorem tryPart_some {inner : Evaluation} :
    TryPart fuel f body handler otherwise (some l) w inner ↔
      TryPart fuel f body handler otherwise none w inner ∨
        ∃ o, TryCourse fuel f body handler otherwise w o ∧ Continues o ∧
          inner = part fuel f "try finally" l o.2 := by
  constructor
  · intro entered
    cases entered with
    | body => exact .inl .body
    | otherwise ok next => exact .inl (.otherwise ok next)
    | handler fails next stored => exact .inl (.handler fails next stored)
    | finalizer last course goesOn =>
      cases last
      exact .inr ⟨_, course, goesOn, rfl⟩
  · rintro (entered | ⟨o, course, goesOn, rfl⟩)
    · cases entered with
      | body => exact .body
      | otherwise ok next => exact .otherwise ok next
      | handler fails next stored => exact .handler fails next stored
      | finalizer last => exact nomatch last
    · exact .finalizer rfl course goesOn

/-- **The calls that a `try` makes are those of its parts.** -/
theorem comes_try (call : ∀ e g, t ≠ .expr e g) :
    Runner.Comes (fun r => r.tryBlock body handler otherwise finalizer f) (.ofFuel fuel) w t v ↔
      TryPart fuel f body handler otherwise finalizer w ⟨fuel, t, v⟩ := by
  cases finalizer with
  | none => exact comes_guarded call
  | some l =>
    rw [tryPart_some, ← comes_guarded call]
    have first : anything.FollowsIn (.ofFuel fuel) anything.Own
        (fun r => r.guarded body handler otherwise f) (fun _ => True) w := follows_course
    constructor
    · intro comes
      obtain comes | ⟨res, w', run, comes⟩ := first.settle.comes_bind comes
      · exact .inl (first.comes_settle.mp comes)
      · obtain ⟨course, goesOn⟩ := tryCourse_of_settle run
        obtain comes | ⟨_, w'', -, comes⟩ := follows_part.comes_bind comes
        · obtain ⟨rfl, rfl⟩ := (comes_part ..).mp comes
          exact .inr ⟨_, course, goesOn, rfl⟩
        · exact (not_comes_const _ comes).elim
    · rintro (comes | ⟨o, course, goesOn, here⟩)
      · exact comes_first (first.comes_settle.mpr comes)
      · obtain ⟨res, settled, -⟩ := course.settled goesOn
        have task := congrArg Evaluation.task here
        have world := congrArg Evaluation.world here
        exact first.settle.comes_second settled (comes_first ((comes_part ..).mpr ⟨task, world⟩))

end Entered

/-! ## The form as a whole -/

variable {finalizer : Option Lambda} {span : Span}

theorem follows_try : anything.FollowsIn (.ofFuel fuel) anything.Own
    (fun r => r.tryBlock body handler otherwise finalizer f) (fun _ => True) w := by
  refine follows_tryBlock (lawful_ofFuel_anything fuel) (fun _ _ => trivial) (fun h _ => ?_)
    (fun _ _ _ _ => trivial) (fun _ _ _ _ => trivial) (fun _ _ _ => trivial) (fun _ _ _ _ => trivial) w
    (World.carries_all (fun _ => trivial) w)
  exact ⟨fun _ _ t _ => admitsTarget_anything t, fun _ _ => trivial⟩

/-- Every part is entered with the same fuel. -/
theorem TryPart.fuel_eq {inner : Evaluation}
    (entered : TryPart fuel f body handler otherwise finalizer w inner) : inner.fuel = fuel := by
  cases entered <;> rfl

/-- **The parts that a `try` enters.** -/
theorem enters_try {label : String} {inner : Evaluation} :
    Enters ⟨fuel + 1, .operation (.tryBlock body handler otherwise finalizer span) f, w⟩ label
        inner ↔
      TryPart fuel f body handler otherwise finalizer w inner ∧ inner.task.IsPart label := by
  have runs (task : Task) (world : World) : Runner.Comes
      (fun r => r.perform (.operation (.tryBlock body handler otherwise finalizer span) f)) (.ofFuel fuel) w
        task world ↔
      Runner.Comes (fun r => r.tryBlock body handler otherwise finalizer f) (.ofFuel fuel) w task world :=
    follows_try.comes_placed
  constructor
  · rintro ⟨⟨same, comes⟩, callable, g, call, labelled⟩
    have same : fuel = inner.fuel := Nat.succ.inj same
    subst same
    have entered := (comes_try fun _ _ expr => nomatch call.symm.trans expr).mp ((runs _ _).mp comes)
    exact ⟨entered, callable, g, call, labelled⟩
  · rintro ⟨entered, callable, g, call, labelled⟩
    have same := entered.fuel_eq
    subst same
    have comes := (comes_try fun _ _ expr => nomatch call.symm.trans expr).mpr entered
    exact ⟨⟨rfl, (runs _ _).mpr comes⟩, callable, g, call, labelled⟩

/-- Every part has the label that it is run with, and no other. -/
theorem isPart_part {label label' : String} {l : Lambda} {v : World} :
    (part fuel f label l v).task.IsPart label' ↔ label = label' := by
  constructor
  · rintro ⟨callable, g, same, labelled⟩
    cases same
    exact labelled
  · intro same
    exact ⟨_, _, rfl, same⟩

/-- A failure without a place gets one. -/
def placed (site : Site) (o : Except Stop (List Value) × World) : Except Stop (List Value) × World :=
  (o.1.mapError fun
    | .unwind u => .unwind (u.located site)
    | stop => stop, o.2)

/-- What is left of how the other parts ended after a `finally` part that ended normally: a signal is
pending, an exception is forgotten. -/
def pending : Except Stop (List Value) → Except Stop (List Value)
  | .error (.unwind (.signal s)) => .error (.unwind (.signal s))
  | _ => .ok []

/-- A `try` is its rule, placed. -/
theorem try_outcome_eq :
    (mk (fuel + 1) (.operation (.tryBlock body handler otherwise finalizer span) f) w).outcome =
      placed (f.site span) (seen ((Runner.ofFuel fuel).tryBlock body handler otherwise finalizer f w)) := by
  show (located (f.site span) ((Runner.ofFuel fuel).tryBlock body handler otherwise finalizer f) >>=
    fun _ => (return [] : Eval (List Value))) w = _
  rw [bind_run]
  unfold located
  rw [mapStop_run]
  rcases (Runner.ofFuel fuel).tryBlock body handler otherwise finalizer f w with ⟨stop | _, v⟩
  · cases stop <;> rfl
  · rfl

/-- How a `try` with a `finally` part ends, when the other parts let it. -/
theorem seen_tryBlock {l : Lambda} {o : Except Stop (List Value) × World}
    (course : TryCourse fuel f body handler otherwise w o) (goesOn : Continues o) :
    seen ((Runner.ofFuel fuel).tryBlock body handler otherwise (some l) f w) =
      match (part fuel f "try finally" l o.2).outcome with
      | (.ok _, v) => (pending o.1, v)
      | (.error stop, v) => (.error stop, v) := by
  obtain ⟨res, settled, ended⟩ := course.settled goesOn
  rw [Runner.tryBlock, bind_run_ok settled, bind_run, part_outcome, ended]
  rcases (Runner.ofFuel fuel).block l "try finally" f o.2 with ⟨stop | _, v⟩
  · rfl
  · rcases res with (s | x) | ⟨⟩ <;> rfl

/-- The end of everything is the end of the form. -/
theorem seen_tryBlock_of_final {o : Except Stop (List Value) × World}
    (course : TryCourse fuel f body handler otherwise w o) (ended : ¬Continues o) :
    seen ((Runner.ofFuel fuel).tryBlock body handler otherwise finalizer f w) = o := by
  have same := course.eq
  cases finalizer with
  | none => exact same.symm
  | some l =>
    obtain ⟨res, w', here, run⟩ | ⟨stop, w', final, here, run⟩ :=
      settle_cases ((Runner.ofFuel fuel).guarded body handler otherwise f) w
    · rw [same, run] at ended
      refine absurd (fun stop ends => ?_) ended
      cases res with
      | ok => exact nomatch ends
      | error u =>
        cases ends
        exact id
    · rw [Runner.tryBlock, bind_run, here, same, run]

end Courses

/-- **The outcome of a `try`.**  It takes one course, which gives what the parts before the `finally` part end
with and the world they leave, `o`.

(1) The body is entered, in the world that the form begins in.  (2) An `else` part is entered if and only if
the body succeeds.  (3) An `except` part runs its body if and only if the body of the form fails with an
exception and that very exception could be stored.  (4) A `finally` part is entered once, in the world
that the other parts leave, however they end (also when the exception could not be stored and when a
signal is on its way), unless everything ends there.

(5) When the `except` part runs, the target of the handler has that exception, and where the handler has no target
nothing is changed.  (6) Without a `finally` part the form ends as the part entered last.  (7) With one it ends
as that part if that fails or raises a signal, else with the pending signal if there is one, and else it succeeds;
and it leaves the world that the `finally` part left.  A failure that has no place yet is placed at the form. -/
theorem try_outcome (fuel : Nat) (f : Frame) (body : Lambda) (handler : Option Handler)
    (otherwise finalizer : Option Lambda) (span : Span) (w : World) :
    let e : Evaluation := ⟨fuel + 1, .operation (.tryBlock body handler otherwise finalizer span) f, w⟩
    let tried := part fuel f "try body" body w
    ∃ o, (∀ o', TryCourse fuel f body handler otherwise w o' ↔ o' = o) ∧
      (∀ inner, e.Enters "try body" inner ↔ inner = tried) ∧
      (∀ inner, e.Enters "try else" inner ↔
        tried.Succeeds ∧ ∃ l, otherwise = some l ∧ inner = part fuel f "try else" l tried.outcome.2) ∧
      (∀ inner, e.Enters "try except" inner ↔
        ∃ x h v, tried.EndsWith (.exception x) ∧ handler = some h ∧
          (Runner.ofFuel fuel).storing h x f tried.outcome.2 = (.ok (), v) ∧
          inner = part fuel f "try except" h.body v) ∧
      (∀ inner, e.Enters "try finally" inner ↔
        Continues o ∧ ∃ l, finalizer = some l ∧ inner = part fuel f "try finally" l o.2) ∧
      (∀ x h v, (Runner.ofFuel fuel).storing h x f tried.outcome.2 = (.ok (), v) →
        (h.target = none → v = tried.outcome.2) ∧
          (w.store.Whole → ∀ target, h.target = some target →
            (Runner.ofFuel fuel).Stores target x f tried.outcome.2 v)) ∧
      (finalizer = none ∨ ¬Continues o → e.outcome = placed (f.site span) o) ∧
      (∀ l, finalizer = some l → Continues o →
        e.outcome = placed (f.site span) (match (part fuel f "try finally" l o.2).outcome with
          | (.ok _, v) => (pending o.1, v)
          | (.error stop, v) => (.error stop, v))) := by
  intro e tried
  obtain ⟨o, course⟩ := exists_tryCourse fuel f body handler otherwise w
  have unique (o') : TryCourse fuel f body handler otherwise w o' ↔ o' = o := by
    rw [tryCourse_iff, ← course.eq]
  refine ⟨o, unique, fun inner => ?_, fun inner => ?_, fun inner => ?_, fun inner => ?_,
    fun x h v stored => ⟨fun unnamed => ?_, fun whole target named => ?_⟩, ?_, ?_⟩
  · rw [enters_try]
    constructor
    · rintro ⟨entered, labelled⟩
      cases entered with
      | body => rfl
      | _ => exact absurd (isPart_part.mp labelled) (by decide)
    · rintro rfl
      exact ⟨.body, isPart_part.mpr rfl⟩
  · rw [enters_try]
    constructor
    · rintro ⟨entered, labelled⟩
      cases entered with
      | otherwise ok next => exact ⟨ok, _, next, rfl⟩
      | _ => exact absurd (isPart_part.mp labelled) (by decide)
    · rintro ⟨ok, l, next, rfl⟩
      exact ⟨.otherwise ok next, isPart_part.mpr rfl⟩
  · rw [enters_try]
    constructor
    · rintro ⟨entered, labelled⟩
      cases entered with
      | handler fails next stored => exact ⟨_, _, _, fails, next, stored, rfl⟩
      | _ => exact absurd (isPart_part.mp labelled) (by decide)
    · rintro ⟨x, h, v, fails, next, stored, rfl⟩
      exact ⟨.handler fails next stored, isPart_part.mpr rfl⟩
  · rw [enters_try]
    constructor
    · rintro ⟨entered, labelled⟩
      cases entered with
      | finalizer last course' goesOn =>
        cases (unique _).mp course'
        exact ⟨goesOn, _, last, rfl⟩
      | _ => exact absurd (isPart_part.mp labelled) (by decide)
    · rintro ⟨goesOn, l, last, rfl⟩
      exact ⟨.finalizer last course goesOn, isPart_part.mpr rfl⟩
  · rw [Runner.storing, unnamed] at stored
    cases stored
    rfl
  · exact Runner.stores_of_storing (Runner.ofFuel_contained fuel) named (whole_part whole) stored
  · rintro (rfl | ended)
    · rw [try_outcome_eq, course.eq]
      rfl
    · rw [try_outcome_eq, seen_tryBlock_of_final course ended]
  · rintro l rfl goesOn
    rw [try_outcome_eq, seen_tryBlock course goesOn]

end Evaluation

end ValueShell
