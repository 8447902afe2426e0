/-
  Computations that agree.

  Two computations agree if, started in worlds that are alike, they end in the same way, with results that
  are related, in worlds that are alike again.  The rules follow the combinators that the evaluator is
  written with, as those for `Stays` do.

  The matching of numbers is fixed from the start: it already says which things will be matched that
  the two runs have yet to make.  So nothing has to be carried over from one matching to a later one.
  In exchange a run must stay within the matching.  It is enough that it ends within, since what comes
  after some point of it takes nothing back (`Climbs`).  That is why a sequence asks it of its second
  part, whatever the first part's result is; it can be read off the second part's text.
-/
import ValueShell.Proofs.AlikeWorlds
import ValueShell.Proofs.Climbing

namespace ValueShell

/-! ## Endings -/

/-- Left early for the same reason. -/
inductive Unwind.Alike (ρ : Matching) : Unwind → Unwind → Prop
  | signal (s : Signal) : Unwind.Alike ρ (.signal s) (.signal s)
  | exception {e e' : Exception} (h : e.Alike ρ e') : Unwind.Alike ρ (.exception e) (.exception e')

/-- Stopped for the same reason. -/
inductive Stop.Alike (ρ : Matching) : Stop → Stop → Prop
  | unwind {u u' : Unwind} (h : u.Alike ρ u') : Stop.Alike ρ (.unwind u) (.unwind u')
  | exit (code : Int) : Stop.Alike ρ (.exit code) (.exit code)
  | blocked : Stop.Alike ρ .blocked .blocked
  | outOfFuel : Stop.Alike ρ .outOfFuel .outOfFuel

/-- Related results, or the same failure but for the numbers in it. -/
inductive Ends {ε ε' α β : Type} (F : ε → ε' → Prop) (R : α → β → Prop) :
    Except ε α → Except ε' β → Prop
  | ok {a : α} {b : β} (h : R a b) : Ends F R (.ok a) (.ok b)
  | error {e : ε} {e' : ε'} (h : F e e') : Ends F R (.error e) (.error e')

/-- Less may be said of related results. -/
theorem Ends.imp {ε ε' α β : Type} {F : ε → ε' → Prop} {R R' : α → β → Prop} {x : Except ε α}
    {y : Except ε' β} (h : Ends F R x y) (himp : ∀ a b, R a b → R' a b) : Ends F R' x y := by
  cases h with
  | ok hab => exact .ok (himp _ _ hab)
  | error he => exact .error he

section Places

variable {ρ : Matching} {site site' : Site}

/-- Where a failure is blamed on. -/
theorem Exception.Alike.located {e e' : Exception} (h : e.Alike ρ e') (hsite : site.Alike ρ site') :
    (e.located site).Alike ρ (e'.located site') := by
  obtain ⟨fault, place⟩ := e
  obtain ⟨fault', place'⟩ := e'
  obtain ⟨same, places⟩ := h
  cases places with
  | none => exact ⟨same, .some hsite⟩
  | some hplace => exact ⟨same, .some hplace⟩

/-- Failures stay alike when they are given alike places. -/
theorem Unwind.Alike.located {u u' : Unwind} (h : u.Alike ρ u') (hsite : site.Alike ρ site') :
    (u.located site).Alike ρ (u'.located site') := by
  cases h with
  | signal s => exact .signal s
  | @exception e e' h =>
    obtain ⟨fault, place⟩ := e
    obtain ⟨fault', place'⟩ := e'
    obtain ⟨same, places⟩ := h
    cases places with
    | none => exact .exception ⟨same, .some hsite⟩
    | some hplace => exact .exception ⟨same, .some hplace⟩

/-- And when they leave their function. -/
theorem Unwind.Alike.escaping {u u' : Unwind} (h : u.Alike ρ u') (hsite : site.Alike ρ site') :
    (escapingException site u).Alike ρ (escapingException site' u') := by
  have made : u.toException.Alike ρ u'.toException := by
    cases h with
    | signal s => exact ⟨rfl, .none⟩
    | exception h => exact h
  exact made.located hsite

end Places

/-- What a run ends within, it has been within all along. -/
theorem Onward.within {ρ : Matching} {w w' : World} (h : Onward w w') (hw : ρ.Within w') :
    ρ.Within w := by
  obtain ⟨events, hevents⟩ := h.journal
  refine ⟨Nat.le_trans h.scopes hw.scopes, fun path code ran => hw.modules path code ?_⟩
  rw [hevents]
  exact List.mem_append_right events ran

namespace Eval

/-- **Two computations that agree.** -/
def Agree (ρ : Matching) {α β : Type} (R : α → β → Prop) (x : Eval α) (y : Eval β) : Prop :=
  ∀ w w', w.Alike ρ w' → ρ.Within (x w).2 →
    Ends (Stop.Alike ρ) R (x w).1 (y w').1 ∧ (x w).2.Alike ρ (y w').2

/-! ## Rules -/

section Rules

variable {ρ : Matching} {α β γ δ : Type} {R : α → β → Prop} {S : γ → δ → Prop}

/-- Results that are related. -/
theorem agree_pure {a : α} {b : β} (h : R a b) : Agree ρ R (pure a) (pure b) :=
  fun _ _ hw _ => ⟨.ok h, hw⟩

/-- Stops for the same reason. -/
theorem agree_throw {stop stop' : Stop} (h : stop.Alike ρ stop') :
    Agree ρ R (throw stop : Eval α) (throw stop' : Eval β) := fun _ _ hw _ => ⟨.error h, hw⟩

/-- **One computation after the other.**  The second part has to climb: the first has then ended within the
matching, too. -/
theorem agree_then {x : Eval α} {y : Eval β} {k : α → Eval γ} {l : β → Eval δ}
    (h : Agree ρ R x y) (next : ∀ a b, R a b → Agree ρ S (k a) (l b)) (climbs : ∀ a, Climbs (k a)) :
    Agree ρ S (x >>= k) (y >>= l) := by
  intro w w' hw within
  have first := h w w' hw
  rw [bind_run] at within ⊢
  rw [bind_run]
  rcases hx : x w with ⟨stop | a, w₁⟩ <;> rw [hx] at first within
  · obtain ⟨ends, after⟩ := first within
    rcases hy : y w' with ⟨stop' | b, w₁'⟩ <;> rw [hy] at ends after
    · cases ends with
      | error hstop => exact ⟨.error hstop, after⟩
    · exact nomatch ends
  · -- the rest of the run stays within the matching, so its start does
    obtain ⟨ends, after⟩ := first (((climbs a).onward w₁).within within)
    rcases hy : y w' with ⟨stop' | b, w₁'⟩ <;> rw [hy] at ends after
    · exact nomatch ends
    · cases ends with
      | ok hab => exact next a b hab w₁ w₁' after within

/-- In most sequences the second part is seen to take nothing back. -/
theorem agree_bind {x : Eval α} {y : Eval β} {k : α → Eval γ} {l : β → Eval δ} [climbs : ∀ a, Climbs (k a)]
    (h : Agree ρ R x y) (next : ∀ a b, R a b → Agree ρ S (k a) (l b)) : Agree ρ S (x >>= k) (y >>= l) :=
  agree_then h next climbs

/-- Less may be said of the results. -/
theorem Agree.imp {R' : α → β → Prop} {x : Eval α} {y : Eval β} (h : Agree ρ R x y)
    (himp : ∀ a b, R a b → R' a b) : Agree ρ R' x y := by
  intro w w' hw within
  obtain ⟨ends, after⟩ := h w w' hw within
  exact ⟨ends.imp himp, after⟩

/-- Looking at the world: what is seen is alike. -/
theorem agree_get {k : World → Eval γ} {l : World → Eval δ}
    (next : ∀ w w', w.Alike ρ w' → Agree ρ S (k w) (l w')) :
    Agree ρ S (get >>= k) (get >>= l) :=
  fun w w' hw within => next w w' hw w w' hw within

/-- What is noted in the journal need not be alike. -/
theorem agree_note (e e' : Event) : Agree ρ (fun _ _ => True) (note e) (note e') :=
  fun _ _ hw _ => ⟨.ok trivial, { hw with }⟩

/-- A fault is the same on both sides. -/
theorem agree_fault (f : Fault) : Agree ρ R (fault f : Eval α) (fault f : Eval β) :=
  agree_bind (agree_note _ _) fun _ _ _ => agree_throw (.unwind (.exception ⟨rfl, .none⟩))

/-- Steps that do not touch the world end alike. -/
theorem agree_ofExcept {x : Except Fault α} {y : Except Fault β} (h : Except.Alike R x y) :
    Agree ρ R (ofExcept x) (ofExcept y) := by
  cases h with
  | ok hab => exact agree_pure hab
  | error f => exact agree_fault f

/-- Failures that are changed alike. -/
theorem agree_mapStop {x : Eval α} {y : Eval β} {change change' : Stop → Stop}
    (h : Agree ρ R x y)
    (hchange : ∀ s s', s.Alike ρ s' → (change s).Alike ρ (change' s')) :
    Agree ρ R (x.mapStop change) (y.mapStop change') := by
  intro w w' hw within
  rw [mapStop_run] at within
  obtain ⟨ends, after⟩ := h w w' hw within
  rw [mapStop_run, mapStop_run]
  refine ⟨?_, after⟩
  dsimp only
  generalize (x w).1 = r at ends
  generalize (y w').1 = r' at ends
  cases ends with
  | ok hab => exact .ok hab
  | error hstop => exact .error (hchange _ _ hstop)

/-- Failures are given alike places. -/
theorem agree_located {x : Eval α} {y : Eval β} {site site' : Site} (hsite : site.Alike ρ site')
    (h : Agree ρ R x y) : Agree ρ R (x.located site) (y.located site') := by
  refine agree_mapStop h fun s s' hs => ?_
  cases hs with
  | unwind hu => exact .unwind (hu.located hsite)
  | exit code => exact .exit code
  | blocked => exact .blocked
  | outOfFuel => exact .outOfFuel

theorem agree_enclosed {x : Eval α} {y : Eval β} {site site' : Site} (hsite : site.Alike ρ site')
    (h : Agree ρ R x y) : Agree ρ R (x.enclosed site) (y.enclosed site') := by
  refine agree_mapStop h fun s s' hs => ?_
  cases hs with
  | unwind hu => exact .unwind (.exception (hu.escaping hsite))
  | exit code => exact .exit code
  | blocked => exact .blocked
  | outOfFuel => exact .outOfFuel

/-- Once settled, both have results, or both have failures. -/
theorem agree_settle {x : Eval α} {y : Eval β} (h : Agree ρ R x y) :
    Agree ρ (Ends (Unwind.Alike ρ) R) (settle x) (settle y) := by
  intro w w' hw within
  have first := h w w' hw
  unfold settle at within ⊢
  rcases hx : x w with ⟨stop | a, w₁⟩ <;> rw [hx] at first within
  · have within₁ : ρ.Within w₁ := by
      cases stop <;> exact within
    obtain ⟨ends, after⟩ := first within₁
    rcases hy : y w' with ⟨stop' | b, w₁'⟩ <;> rw [hy] at ends after
    · cases ends with
      | error hstop =>
        cases hstop with
        | unwind hu => exact ⟨.ok (.error hu), after⟩
        | exit code => exact ⟨.error (.exit code), after⟩
        | blocked => exact ⟨.error .blocked, after⟩
        | outOfFuel => exact ⟨.error .outOfFuel, after⟩
    · exact nomatch ends
  · obtain ⟨ends, after⟩ := first within
    rcases hy : y w' with ⟨stop' | b, w₁'⟩ <;> rw [hy] at ends after
    · exact nomatch ends
    · cases ends with
      | ok hab => exact ⟨.ok (.ok hab), after⟩

/-- And resumed, they end alike. -/
theorem agree_resume {x : Except Unwind α} {y : Except Unwind β}
    (h : Ends (Unwind.Alike ρ) R x y) : Agree ρ R (resume x) (resume y) := by
  cases h with
  | ok hab => exact agree_pure hab
  | error hu => exact agree_throw (.unwind hu)

/-- Both bodies go on, or both stop their loops. -/
theorem agree_loopBody {x y : Eval Unit} (h : Agree ρ (fun _ _ => True) x y) :
    Agree ρ Eq (loopBody x) (loopBody y) := by
  refine agree_then (agree_settle h) (fun outcome outcome' ends => ?_) fun outcome => by
    split <;> infer_instance
  cases ends with
  | ok => exact agree_pure rfl
  | error hu =>
    cases hu with
    | signal s =>
      cases s with
      | «continue» => exact agree_pure rfl
      | «break» => exact agree_pure rfl
      | «return» => exact agree_throw (.unwind (.signal _))
    | exception he => exact agree_throw (.unwind (.exception he))

/-- Both return, or both are left in the same way. -/
theorem agree_returning {x y : Eval Unit} (h : Agree ρ (fun _ _ => True) x y) :
    Agree ρ (fun _ _ => True) (returning x) (returning y) := by
  refine agree_then (agree_settle h) (fun outcome outcome' ends => ?_) fun outcome => by
    split <;> infer_instance
  cases ends with
  | ok => exact agree_pure trivial
  | error hu =>
    cases hu with
    | signal s =>
      cases s with
      | «return» => exact agree_pure trivial
      | «continue» => exact agree_throw (.unwind (.signal _))
      | «break» => exact agree_throw (.unwind (.signal _))
    | exception he => exact agree_throw (.unwind (.exception he))

/-! ### Repetition -/

/-- Loops over related items take as many rounds. -/
theorem agree_forEach {step : α → Eval Bool} {step' : β → Eval Bool} {items : List α}
    {items' : List β} (hitems : List.Forall₂ R items items')
    (h : ∀ a b, R a b → Agree ρ Eq (step a) (step' b)) [∀ a, Climbs (step a)] :
    Agree ρ (fun _ _ => True) (forEach step items) (forEach step' items') := by
  induction hitems with
  | nil => exact agree_pure trivial
  | cons hab _ ih =>
    refine agree_bind (h _ _ hab) fun goesOn goesOn' same => ?_
    subst same
    split
    · exact ih
    · exact agree_pure trivial

theorem agree_forM {step : α → Eval Unit} {step' : β → Eval Unit} {items : List α}
    {items' : List β} (hitems : List.Forall₂ R items items')
    (h : ∀ a b, R a b → Agree ρ (fun _ _ => True) (step a) (step' b)) [∀ a, Climbs (step a)] :
    Agree ρ (fun _ _ => True) (items.forM step) (items'.forM step') := by
  induction hitems with
  | nil => exact agree_pure trivial
  | cons hab _ ih => exact agree_bind (h _ _ hab) fun _ _ _ => ih

/-- Related items are mapped to related results. -/
theorem agree_mapM {step : α → Eval γ} {step' : β → Eval δ} {items : List α}
    {items' : List β} (hitems : List.Forall₂ R items items')
    (h : ∀ a b, R a b → Agree ρ S (step a) (step' b)) [∀ a, Climbs (step a)] :
    Agree ρ (List.Forall₂ S) (items.mapM step) (items'.mapM step') := by
  induction hitems with
  | nil => exact agree_pure .nil
  | cons hab _ ih =>
    rw [List.mapM_cons, List.mapM_cons]
    refine agree_bind (h _ _ hab) fun _ _ first => ?_
    exact agree_bind ih fun _ _ rest => agree_pure (.cons first rest)

/-- A fold keeps its results related. -/
theorem agree_foldlM {step : γ → α → Eval γ} {step' : δ → β → Eval δ} {items : List α}
    {items' : List β} (hitems : List.Forall₂ R items items')
    (h : ∀ c d a b, S c d → R a b → Agree ρ S (step c a) (step' d b)) [∀ c a, Climbs (step c a)]
    {c : γ} {d : δ} (hcd : S c d) : Agree ρ S (items.foldlM step c) (items'.foldlM step' d) := by
  induction hitems generalizing c d with
  | nil => exact agree_pure hcd
  | cons hab _ ih =>
    rw [List.foldlM_cons, List.foldlM_cons]
    exact agree_bind (h _ _ _ _ hcd hab) fun _ _ hcd => ih hcd

end Rules

/-! ## The parts of the world -/

section Parts

variable {ρ : Matching} {α β γ δ : Type} {R : α → β → Prop}

/-- A change of alike stores, as long as it stays within the matching. -/
theorem agree_updateStore {change : Store → α × Store} {change' : Store → β × Store}
    (h : ∀ s s', s.Alike ρ s' → (change s).2.scopes.size ≤ ρ.bound →
      R (change s).1 (change' s').1 ∧ (change s).2.Alike ρ (change' s').2) :
    Agree ρ R (updateStore change) (updateStore change') := by
  intro w w' hw within
  obtain ⟨results, alike⟩ := h w.store w'.store hw.store within.scopes
  exact ⟨.ok results, { hw with store := alike }⟩

/-- A change of alike streams. -/
theorem agree_updateStreams {change : Streams → α × Streams} {change' : Streams → β × Streams}
    (h : ∀ s s', s.Alike ρ s' →
      R (change s).1 (change' s').1 ∧ (change s).2.Alike ρ (change' s').2) :
    Agree ρ R (updateStreams change) (updateStreams change') := by
  intro w w' hw _
  obtain ⟨results, alike⟩ := h w.streams w'.streams hw.streams
  exact ⟨.ok results, { hw with streams := alike }⟩

/-- A change of alike caches. -/
theorem agree_updateModules {change change' : ModuleCache → ModuleCache}
    (h : ∀ cache cache', Table.Alike (ModuleEntry.Alike ρ) cache cache' →
      Table.Alike (ModuleEntry.Alike ρ) (change cache) (change' cache')) :
    Agree ρ (fun _ _ => True) (updateModules change) (updateModules change') :=
  fun _ _ hw _ => ⟨.ok trivial, { hw with modules := h _ _ hw.modules }⟩

/-! ### Scopes and cells -/

/-- New scopes are matched, if they are within the matching at all. -/
theorem agree_newScope : Agree ρ ρ.Scope (updateStore fun s => s.newScope [])
    (updateStore fun s => s.newScope []) := by
  refine agree_updateStore fun s s' hs within => ?_
  have grown : s.scopes.size < ρ.bound := by
    have size : (s.newScope []).2.scopes.size = s.scopes.size + 1 := s.size_newScope []
    omega
  exact ⟨⟨hs.scopesInStep.rel, grown⟩, hs.newScope .nil fun _ _ he => nomatch he⟩

/-- So are overlays of visible scopes. -/
theorem agree_overlay {outer outer' inner inner' : ScopeId} (ho : ρ.Visible outer outer')
    (hi : ρ.Visible inner inner') : Agree ρ ρ.Scope (updateStore fun s => s.overlay outer inner)
      (updateStore fun s => s.overlay outer' inner') := by
  refine agree_updateStore fun s s' hs within => ?_
  have grown : s.scopes.size < ρ.bound := by
    have size : (s.overlay outer inner).2.scopes.size = s.scopes.size + 1 := s.size_newScope _
    omega
  exact ⟨⟨hs.scopesInStep.rel, grown⟩, hs.overlay ho hi⟩

/-- And new identities. -/
theorem agree_newIdentity : Agree ρ ρ.identities.Rel (updateStore Store.newIdentity)
    (updateStore Store.newIdentity) :=
  agree_updateStore fun _ _ hs _ => ⟨hs.identitiesInStep.rel, hs.newIdentity⟩

/-- A fresh variable, bound to its name at once. -/
theorem agree_declareHere {scope scope' : ScopeId} (hscope : ρ.Scope scope scope') (name : String)
    {result : CellId → α} {result' : CellId → β}
    (hresult : ∀ c c', ρ.Cell c c' → R (result c) (result' c')) :
    Agree ρ R
      (updateStore fun s =>
        (result (s.declare name).1, (s.declare name).2.bind scope name (s.declare name).1))
      (updateStore fun s =>
        (result' (s.declare name).1, (s.declare name).2.bind scope' name (s.declare name).1)) := by
  refine agree_updateStore fun s s' hs within => ?_
  have size : ((s.declare name).2.bind scope name (s.declare name).1).scopes.size =
      (s.declare name).2.scopes.size := Array.size_modify
  obtain ⟨cells, declared⟩ := hs.declare name (size ▸ within)
  exact ⟨hresult _ _ cells, declared.bind hscope cells fun _ => s.honours_declare name⟩

/-- New variables are matched; in a strict matching they have to honour what their names say. -/
theorem agree_bindNew {scope scope' : ScopeId} (hscope : ρ.Scope scope scope') (name : String)
    {c c' : Cell} (hc : c.Alike ρ c')
    (honoured : ρ.strict → ∀ s : Store, (s.newCell c).2.Honours name ⟨s.cells.size⟩) :
    Agree ρ (fun _ _ => True) (updateStore fun s => ((), s.bindNew scope name c))
      (updateStore fun s => ((), s.bindNew scope' name c')) :=
  agree_updateStore fun s _ hs _ =>
    ⟨trivial, hs.bindNew hscope hc fun strict => honoured strict s⟩

/-- A change of a cell that amounts to an assignment, if it changes anything. -/
theorem agree_tryCell {ε : Type} {c c' : CellId} (hc : ρ.Cell c c')
    {change change' : Cell → Except ε Cell}
    (h : ∀ cell cell', cell.Alike ρ cell' →
      Except.Alike (Cell.Alike ρ) (change cell) (change' cell'))
    (assigns : ∀ cell cell', change cell = .ok cell' →
      cell' = cell ∨ ∃ v, cell.assign v = .ok cell') :
    Agree ρ Eq (tryCell c change) (tryCell c' change') := by
  intro w w' hw _
  rw [tryCell_run, tryCell_run]
  have changed := hw.store.changeCell hc h assigns
  generalize w.store.changeCell c change = r at changed
  generalize w'.store.changeCell c' change' = r' at changed
  cases changed with
  | ok hs => exact ⟨.ok rfl, { hw with store := hs }⟩
  | error e => exact ⟨.ok rfl, hw⟩

/-- An assignment to matched cells is refused by both or by none. -/
theorem agree_assign {c c' : CellId} (hc : ρ.Cell c c') {v v' : Value} (hv : v.Alike ρ v') :
    Agree ρ Eq (tryCell c fun cell => cell.assign v) (tryCell c' fun cell => cell.assign v') :=
  agree_tryCell hc (fun _ _ h => h.assign hv) fun _ _ h => .inr ⟨v, h⟩

/-- The environments are equal. -/
theorem agree_tryEnvironment {ε : Type} (change : Environment → Except ε Environment) :
    Agree ρ Eq (tryEnvironment change) (tryEnvironment change) := by
  intro w w' hw _
  rw [tryEnvironment, get_bind_run, get_bind_run, ← hw.environment]
  cases change w.environment with
  | error e => exact ⟨.ok rfl, hw⟩
  | ok environment => exact ⟨.ok rfl, { hw with environment := rfl }⟩

/-! ### Streams -/

/-- Alike values are put out to alike ports. -/
theorem agree_put {p p' : Ports} (hp : p.Alike ρ p') {v v' : Value} (hv : v.Alike ρ v') :
    Agree ρ (fun _ _ => True) (put p v) (put p' v') :=
  agree_updateStreams fun _ _ hs => ⟨trivial, hs.put hp.values hv⟩

theorem agree_writeBytes {p p' : Ports} (hp : p.Alike ρ p') (bytes : List UInt8) :
    Agree ρ (fun _ _ => True) (writeBytes p bytes) (writeBytes p' bytes) :=
  agree_updateStreams fun _ _ hs => ⟨trivial, hs.write hp.bytes bytes⟩

/-- New queues are matched, -/
theorem agree_newQueue : Agree ρ ρ.Input (updateStreams fun s => s.newQueue [])
    (updateStreams fun s => s.newQueue []) :=
  agree_updateStreams fun _ _ hs => hs.newQueue

/-- and so are new buffers. -/
theorem agree_newBuffer :
    Agree ρ (fun b b' : BufferId => ρ.buffers.InStep b.index b'.index)
      (updateStreams Streams.newBuffer) (updateStreams Streams.newBuffer) :=
  agree_updateStreams fun _ _ hs => hs.newBuffer

/-- Values that are taken from matched queues are alike. -/
theorem agree_takeFrom {q q' : QueueId} (hq : ρ.Input q q') :
    Agree ρ (Option.Rel (Value.Alike ρ)) (takeFrom q) (takeFrom q') := by
  refine agree_updateStreams fun s s' hs => ?_
  have next := hs.next? hq
  cases hn : s.next? q <;> cases hn' : s'.next? q' <;> rw [hn, hn'] at next
  · exact ⟨.none, hs⟩
  · exact nomatch next
  · exact nomatch next
  · exact ⟨next, hs.skip hq⟩

/-- Both take as many. -/
theorem agree_takeEach {q q' : QueueId} (hq : ρ.Input q q') {step step' : Value → Eval Bool}
    (h : ∀ v v', v.Alike ρ v' → Agree ρ Eq (step v) (step' v')) [∀ v, Climbs (step v)]
    (count : Nat) :
    Agree ρ (fun _ _ => True) (takeEach q step count) (takeEach q' step' count) := by
  induction count with
  | zero => exact agree_pure trivial
  | succ count ih =>
    refine agree_then (agree_takeFrom hq) (fun next next' hnext => ?_) fun next => by
      split <;> infer_instance
    cases hnext with
    | none => exact agree_pure trivial
    | some hv =>
      refine agree_bind (h _ _ hv) fun goesOn goesOn' same => ?_
      subst same
      split
      · exact ih
      · exact agree_pure trivial

/-- And both take them from their input, or have none. -/
theorem agree_eachInput {p p' : Ports} (hp : p.Alike ρ p') {step step' : Value → Eval Bool}
    (h : ∀ v v', v.Alike ρ v' → Agree ρ Eq (step v) (step' v')) [∀ v, Climbs (step v)] :
    Agree ρ (fun _ _ => True) (eachInput p step) (eachInput p' step') := by
  have input := hp.input
  unfold eachInput
  generalize p.input = q at input
  generalize p'.input = q' at input
  cases input with
  | none => exact agree_pure trivial
  | some hq =>
    refine agree_get fun w w' hw => ?_
    rw [(hw.streams.waiting hq).length_eq]
    exact agree_takeEach hq h _

end Parts

end Eval

end ValueShell
