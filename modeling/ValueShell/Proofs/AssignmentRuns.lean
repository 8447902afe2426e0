/-
  What an assignment does, step by step.

  An assignment resolves its targets, evaluates its values, and then writes each target in turn; a rest
  target is written last, with the list of the values that are left.  So it comes down to one list of
  resolved targets with the value each of them gets (`ResolvedTargets.pairs`), written from the front
  (`Runner.assign_eq`), and what is true of every write on the way is an induction over that list.

  The brackets of an element target are evaluated when the target is resolved.  `Runner.Yields` says that
  each of them has one value, and which; it is the same for the brackets of a reference.
-/
import ValueShell.Proofs.Conduct
import ValueShell.Proofs.ScopedEvaluation

namespace ValueShell

open Eval

/-- Both parts of a sequence with a result have one. -/
theorem Eval.of_bind_run_ok {α β : Type} {x : Eval α} {k : α → Eval β} {b : β} {w w'' : World}
    (run : (x >>= k) w = (.ok b, w'')) : ∃ a w', x w = (.ok a, w') ∧ k a w' = (.ok b, w'') := by
  rw [bind_run] at run
  rcases first : x w with ⟨stop | a, w'⟩ <;> rw [first] at run
  · exact nomatch run
  · exact ⟨a, w', rfl, run⟩

/-- What stays within bounds and has a result leads from one world to the other. -/
theorem Eval.Stays.evolves {α : Type} {x : Eval α} {home : Option ScopeId} {loading : List String} {a : α}
    {w w' : World} (h : Stays home loading x) (run : x w = (.ok a, w')) :
    Evolves .settled home loading w w' := by
  have evolves := h w
  rw [run] at evolves
  exact evolves

/-! ## The list of writes -/

namespace Resolved

/-- Writes to each target the value that is paired with it, in order. -/
def writeAll (f : Frame) : List (Resolved × Value) → Eval Unit
  | [] => return ()
  | (t, v) :: rest => do
    t.write v f
    writeAll f rest

theorem writeEach_eq (f : Frame) (ts : List Resolved) (vs : List Value) :
    writeEach f ts vs = writeAll f (ts.zip vs) := by
  induction ts generalizing vs with
  | nil => rfl
  | cons t ts ih =>
    cases vs with
    | nil => rfl
    | cons v vs => exact congrArg (t.write v f >>= ·) (funext fun _ => ih vs)

theorem writeAll_append (f : Frame) (first later : List (Resolved × Value)) :
    writeAll f (first ++ later) = (do
      writeAll f first
      writeAll f later) := by
  induction first with
  | nil => rfl
  | cons p first ih =>
    show (do
      p.1.write p.2 f
      writeAll f (first ++ later)) = _
    rw [ih]
    exact (bind_assoc _ _ _).symm

theorem stays_writeAll (f : Frame) {home : Option ScopeId} {loading : List String}
    (pairs : List (Resolved × Value)) : Stays home loading (writeAll f pairs) := by
  induction pairs with
  | nil => exact stays_pure _
  | cons p pairs ih => exact stays_bind (Runner.stays_write p.1 p.2 f) fun _ => ih

end Resolved

namespace ResolvedTargets

/-- Each target with the value it gets. -/
def pairs (t : ResolvedTargets) (values : List Value) : List (Resolved × Value) :=
  t.fixed.zip values ++ t.rest.toList.map fun rest => (rest, .list (values.drop t.fixed.length))

/-- There are as many values as it takes. -/
def Takes (t : ResolvedTargets) (count : Nat) : Prop :=
  t.fixed.length ≤ count ∧ (t.rest.isNone → count = t.fixed.length)

instance (t : ResolvedTargets) (count : Nat) : Decidable (t.Takes count) :=
  inferInstanceAs (Decidable (_ ∧ _))

/-- Every target gets a value. -/
theorem pairs_fst {t : ResolvedTargets} {values : List Value} (takes : t.Takes values.length) :
    (t.pairs values).map Prod.fst = t.all := by
  rw [pairs, List.map_append, List.map_fst_zip takes.1, all, List.map_map]
  exact congrArg _ (List.map_id _)

/-- A target, with the value that it gets. -/
theorem pairs_split {t : ResolvedTargets} {values : List Value} (takes : t.Takes values.length)
    {earlier later : List Resolved} {here : Resolved} (inOrder : t.all = earlier ++ here :: later) :
    ∃ before v after, t.pairs values = before ++ (here, v) :: after ∧ before.map Prod.fst = earlier := by
  have names := pairs_fst takes
  rw [inOrder] at names
  obtain ⟨before, rest, split, beforeNames, restNames⟩ := List.map_eq_append_iff.mp names
  obtain ⟨⟨_, v⟩, after, rfl, rfl, -⟩ := List.map_eq_cons_iff.mp restNames
  exact ⟨before, v, after, split, beforeNames⟩

end ResolvedTargets

namespace Runner

variable {r : Runner} {f : Frame} {targets : Targets} {w : World}

/-- **An assignment is a list of writes**, once its targets are resolved and its values are known. -/
theorem assign_eq (r : Runner) (targets : Targets) (values : List Expr) (f : Frame) :
    r.assign targets values f = (do
      let resolved ← r.resolveTargets f targets
      let found ← r.exprs f values
      if resolved.Takes found.length then Resolved.writeAll f (resolved.pairs found)
      else fault .arityMismatch) := by
  refine congrArg (r.resolveTargets f targets >>= ·) (funext fun resolved => ?_)
  refine congrArg (r.exprs f values >>= ·) (funext fun found => ?_)
  obtain ⟨fixed, rest⟩ := resolved
  cases rest with
  | none =>
    have same : (⟨fixed, none⟩ : ResolvedTargets).Takes found.length ↔ found.length = fixed.length :=
      ⟨fun takes => takes.2 rfl, fun same => ⟨Nat.le_of_eq same.symm, fun _ => same⟩⟩
    have all : (⟨fixed, none⟩ : ResolvedTargets).pairs found = fixed.zip found := List.append_nil _
    simp only [same, all, Resolved.writeEach_eq]
  | some rest =>
    have same : (⟨fixed, some rest⟩ : ResolvedTargets).Takes found.length ↔
        fixed.length ≤ found.length := ⟨fun takes => takes.1, fun le => ⟨le, nofun⟩⟩
    dsimp only
    by_cases le : fixed.length ≤ found.length
    · have all : (⟨fixed, some rest⟩ : ResolvedTargets).pairs found =
          fixed.zip (found.take fixed.length) ++ [(rest, .list (found.drop fixed.length))] := by
        rw [ResolvedTargets.pairs, List.zip_eq_zip_take_min, Nat.min_eq_left le, List.take_length]
        rfl
      have last (v : Value) : Resolved.writeAll f [(rest, v)] = rest.write v f := bind_pure_unit
      rw [if_pos le, if_pos (same.mpr le), all, Resolved.writeAll_append, Resolved.writeEach_eq, last]
    · rw [if_neg le, if_neg fun takes => le (same.mp takes)]

/-- The targets are resolved in order, and all that matters is how that goes. -/
theorem resolveEach_run (r : Runner) (f : Frame) (targets : Targets) (w : World) :
    r.resolveEach f targets.all w =
      (((r.resolveTargets f targets w).1.map ResolvedTargets.all), (r.resolveTargets f targets w).2) := by
  rw [← resolveTargets_all]
  show (r.resolveTargets f targets >>= fun resolved => pure resolved.all) w = _
  rw [bind_run]
  rcases r.resolveTargets f targets w with ⟨stop | resolved, w'⟩ <;> rfl

theorem length_resolveEach {ts : List Target} {rs : List Resolved} {w w' : World}
    (run : r.resolveEach f ts w = (.ok rs, w')) : rs.length = ts.length := by
  induction ts generalizing rs w with
  | nil =>
    cases run
    rfl
  | cons t ts ih =>
    obtain ⟨first, w₁, -, run⟩ := of_bind_run_ok run
    obtain ⟨later, w₂, resolved, run⟩ := of_bind_run_ok run
    cases run
    rw [List.length_cons, List.length_cons, ih resolved]

/-! ## On the way -/

/-- **The assignment comes to write its targets from number `n` on**, counted from zero: all of them are resolved,
there are as many values as they take, and the targets before are written. -/
def ComesToWrite (r : Runner) (f : Frame) (targets : Targets) (values : List Expr) (n : Nat) (w w' : World) :
    Prop :=
  ∃ resolved found w₁ w₂, r.resolveTargets f targets w = (.ok resolved, w₁) ∧
    r.exprs f values w₁ = (.ok found, w₂) ∧ resolved.Takes found.length ∧
    Resolved.writeAll f ((resolved.pairs found).take n) w₂ = (.ok (), w')

section Target

variable {values : List Expr} {before after : List Target} {t : Target} {rs : List Resolved} {w₁ w₃ : World}
  (all : targets.all = before ++ t :: after) (first : r.resolveEach f before w = (.ok rs, w₁))
include all first

/-- An assignment fails where one of its targets cannot be resolved. -/
theorem assign_unresolved {stop : Stop} (fails : (r.resolveTarget f t w₁).1 = .error stop) :
    (r.assign targets values f w).1 = .error stop := by
  have each := r.resolveEach_run f targets w
  rw [all, resolveEach_append, bind_run_ok first] at each
  have failed : (r.resolveEach f (t :: after) w₁).1 = .error stop := Conduct.bind_error fails
  have unresolved := (congrArg Prod.fst each).symm.trans (Conduct.bind_error failed)
  rw [assign_eq]
  refine Conduct.bind_error ?_
  cases here : (r.resolveTargets f targets w).1 with
  | error other =>
    rw [here] at unresolved
    exact congrArg _ (Except.error.inj unresolved)
  | ok resolved =>
    rw [here] at unresolved
    exact nomatch unresolved

/-- One of the targets that are resolved, with those before and after it. -/
theorem resolveTargets_split {resolved : ResolvedTargets} {w' : World}
    (run : r.resolveTargets f targets w = (.ok resolved, w')) :
    ∃ t' w₂ rest, r.resolveTarget f t w₁ = (.ok t', w₂) ∧ r.resolveEach f after w₂ = (.ok rest, w') ∧
      resolved.all = rs ++ t' :: rest := by
  have each := r.resolveEach_run f targets w
  rw [run, all, resolveEach_append, bind_run_ok first] at each
  obtain ⟨later, wl, resolves, each⟩ := of_bind_run_ok each
  obtain ⟨t', w₂, here, resolves⟩ := of_bind_run_ok resolves
  obtain ⟨rest, wr, others, resolves⟩ := of_bind_run_ok resolves
  cases resolves
  have same : resolved.all = rs ++ t' :: rest := (Except.ok.inj (congrArg Prod.fst each)).symm
  have there : w' = wl := (congrArg Prod.snd each).symm
  exact ⟨t', w₂, rest, here, there ▸ others, same⟩

/-- **A target that an assignment comes to write** was resolved, and how its write ends decides how the assignment
goes on. -/
theorem ComesToWrite.target (hr : r.Contained) (comes : r.ComesToWrite f targets values before.length w w₃) :
    ∃ t' v w₂, r.resolveTarget f t w₁ = (.ok t', w₂) ∧
      Evolves .settled (some f.localScope) f.loading w₂ w₃ ∧
      (∀ stop, (t'.write v f w₃).1 = .error stop → (r.assign targets values f w).1 = .error stop) ∧
      ∀ w₄, t'.write v f w₃ = (.ok (), w₄) →
        r.ComesToWrite f targets values (before.length + 1) w w₄ := by
  obtain ⟨resolved, found, wr, wv, resolves, evaluates, takes, written⟩ := comes
  obtain ⟨t', w₂, rest, here, others, inOrder⟩ := resolveTargets_split all first resolves
  obtain ⟨earlier, v, later, pairs, names⟩ := ResolvedTargets.pairs_split takes inOrder
  have count : before.length = earlier.length := by
    rw [← length_resolveEach first, ← names, List.length_map]
  have next : (resolved.pairs found).take (before.length + 1) = earlier ++ [(t', v)] := by
    rw [pairs, count, List.take_length_add_append]
    rfl
  rw [pairs, count, List.take_left] at written
  refine ⟨t', v, w₂, here, ?_, fun stop fails => ?_, fun w₄ writes => ?_⟩
  · have resolving := (stays_resolveEach hr f after).evolves others
    have evaluating := (stays_exprs (fun e => hr.expr e f) values).evolves evaluates
    exact resolving.trans (evaluating.trans ((Resolved.stays_writeAll f earlier).evolves written))
  · rw [assign_eq, bind_run_ok resolves, bind_run_ok evaluates, if_pos takes, pairs, Resolved.writeAll_append,
      bind_run_ok written]
    exact Conduct.bind_error fails
  · refine ⟨resolved, found, wr, wv, resolves, evaluates, takes, ?_⟩
    rw [next, Resolved.writeAll_append, bind_run_ok written]
    show (t'.write v f >>= fun _ => Resolved.writeAll f []) w₃ = _
    rw [bind_run_ok writes]
    rfl

end Target

/-! ## Brackets -/

/-- **Every bracket yields one value**, its key. -/
inductive Yields (r : Runner) (f : Frame) : List IndexBracket → List Value → World → World → Prop
  | nil {w : World} : Yields r f [] [] w w
  | cons {b : IndexBracket} {bs : List IndexBracket} {key : Value} {keys : List Value} {w w₁ w₂ : World}
      (one : r.exprs f b.items w = (.ok [key], w₁)) (rest : Yields r f bs keys w₁ w₂) :
      Yields r f (b :: bs) (key :: keys) w w₂

/-- **The bracket of that number is the first that yields another number of values.** -/
inductive Irregular (r : Runner) (f : Frame) : List IndexBracket → Nat → World → Prop
  | here {b : IndexBracket} {bs : List IndexBracket} {found : List Value} {w w₁ : World}
      (run : r.exprs f b.items w = (.ok found, w₁)) (count : found.length ≠ 1) :
      Irregular r f (b :: bs) 1 w
  | later {b : IndexBracket} {bs : List IndexBracket} {key : Value} {k : Nat} {w w₁ : World}
      (one : r.exprs f b.items w = (.ok [key], w₁)) (rest : Irregular r f bs k w₁) :
      Irregular r f (b :: bs) (k + 1) w

theorem Yields.length_eq {bs : List IndexBracket} {keys : List Value} {w w' : World}
    (yields : r.Yields f bs keys w w') : keys.length = bs.length := by
  induction yields with
  | nil => rfl
  | cons _ _ ih => rw [List.length_cons, List.length_cons, ih]

/-- The keys are the path of the element. -/
theorem Yields.elementPath {e : ElementTarget} {keys : List Value} {w w' : World}
    (yields : r.Yields f e.brackets keys w w') (tooMany : Fault) :
    r.elementPath f tooMany e w = (.ok keys, w') := by
  suffices ∀ {bs keys w w'}, r.Yields f bs keys w w' → ∀ level,
      elementPath.go r f tooMany e level bs w = (.ok keys, w') from this yields 1
  intro bs keys w w' yields
  induction yields with
  | nil => exact fun _ => rfl
  | cons one _ ih =>
    intro level
    rw [elementPath.go, bind_run_ok one]
    dsimp only
    rw [bind_run_ok (ih (level + 1))]
    rfl

/-- A bracket with another number of values is blamed. -/
theorem Irregular.elementPath {e : ElementTarget} {k : Nat} {w : World}
    (irregular : r.Irregular f e.brackets k w) (tooMany : Fault) :
    (r.elementPath f tooMany e w).1 =
      .error (.unwind (.exception ⟨tooMany, some (f.site (e.spanTo k))⟩)) := by
  suffices ∀ {bs k w}, r.Irregular f bs k w → ∀ level, (elementPath.go r f tooMany e level bs w).1 =
      .error (.unwind (.exception ⟨tooMany, some (f.site (e.spanTo (level + k - 1)))⟩)) by
    have first : 1 + k - 1 = k := by omega
    have all := this irregular 1
    rw [first] at all
    exact all
  intro bs k w irregular
  induction irregular with
  | @here b bs found w w₁ run count =>
    intro level
    rw [elementPath.go, bind_run_ok run]
    match found, count with
    | [], _ => rfl
    | _ :: _ :: _, _ => rfl
  | @later b bs key k w w₁ one _ ih =>
    intro level
    have deeper : level + (k + 1) - 1 = level + 1 + k - 1 := by omega
    rw [elementPath.go, bind_run_ok one, deeper]
    exact Conduct.bind_error (ih (level + 1))

end Runner

end ValueShell
