/-
  Assertions about evaluations.

  `Triple home P x Q`: if the world is sound and `P` holds, then after `x` the world is sound, and `Q` holds of
  the result, if there is one.  This is only claimed of runs in which all modules are orderly, and which
  modules a run will load is not known before it ends.  So a triple also says, of all runs, that the
  world only grows: whatever was in the journal in the middle of a run is there at its end.

  A part of an evaluation that is at home nowhere leaves all scopes alone, and every assertion about
  scopes with it: these are STABLE, and need not be mentioned where such a part is described.
-/
import ValueShell.Proofs.Soundness

namespace ValueShell

open Eval

/-- **A run from `P` keeps the world sound** and its result satisfies `Q`. -/
structure Triple (g : Ground) (homes : List ScopeId) (home : Option ScopeId) {α : Type}
    (P : World → Prop) (x : Eval α) (Q : α → World → Prop) : Prop where
  grows : ∀ w, Grows home w (x w).2
  keeps : ∀ w, g.Obeyed (x w).2.journal → w.Sound g homes → P w →
    (x w).2.Sound g homes ∧ ∀ a, (x w).1 = .ok a → Q a (x w).2

/-! ## Stable assertions -/

/-- Kept by whatever leaves the scopes alone. -/
class Stable (P : World → Prop) : Prop where
  keep : ∀ {w w' : World}, Grows none w w' → P w → P w'

/-- What does not depend on the world. -/
instance (φ : Prop) : Stable fun _ => φ := ⟨fun _ h => h⟩

/-- Both of two stable assertions. -/
instance {P Q : World → Prop} [Stable P] [Stable Q] : Stable fun w => P w ∧ Q w :=
  ⟨fun hg h => ⟨Stable.keep hg h.1, Stable.keep hg h.2⟩⟩

/-- All of them. -/
instance {ι : Sort u} {P : ι → World → Prop} [∀ i, Stable (P i)] : Stable fun w => ∀ i, P i w :=
  ⟨fun hg h i => Stable.keep hg (h i)⟩

/-- A scope that is there stays there. -/
instance {scope : ScopeId} : Stable fun w => scope.index < w.store.scopes.size :=
  ⟨fun hg h => Nat.lt_of_lt_of_le h hg.scopes⟩

/-- Values that are sound stay so. -/
instance {g : Ground} {homes : List ScopeId} {vs : List Value} :
    Stable (World.Admits g homes vs) := ⟨fun hg h => h.grows hg nofun⟩

/-- A frame that covers a table goes on to do so. -/
instance {g : Ground} {homes : List ScopeId} {f : Frame} {t : ScopeTable} :
    Stable (f.Covers g homes t) := ⟨fun hg h => h.grows hg⟩

section Rules

variable {g : Ground} {homes : List ScopeId} {home : Option ScopeId} {α β : Type}
  {P P' : World → Prop}

/-! ## Structural rules -/

/-- One may assume more and conclude less, in a sound world. -/
theorem Triple.weaken {x : Eval α} {Q Q' : α → World → Prop} (h : Triple g homes home P x Q)
    (hp : ∀ w, w.Sound g homes → P' w → P w)
    (hq : ∀ a w, w.Sound g homes → Q a w → Q' a w) : Triple g homes home P' x Q' where
  grows := h.grows
  keeps w hob hs hpre := by
    obtain ⟨hs', hres⟩ := h.keeps w hob hs (hp w hs hpre)
    exact ⟨hs', fun a ha => hq a _ hs' (hres a ha)⟩

theorem Triple.pre {x : Eval α} {Q : α → World → Prop} (h : Triple g homes home P x Q)
    (hp : ∀ w, P' w → P w) : Triple g homes home P' x Q :=
  h.weaken (fun w _ => hp w) fun _ _ _ hq => hq

theorem Triple.post {x : Eval α} {Q Q' : α → World → Prop} (h : Triple g homes home P x Q)
    (hq : ∀ a w, Q a w → Q' a w) : Triple g homes home P x Q' :=
  h.weaken (fun _ _ hp => hp) fun a w _ => hq a w

/-- Nothing need be said of the result. -/
theorem Triple.any {x : Eval α} {Q : α → World → Prop} (h : Triple g homes home P x Q) :
    Triple g homes home P x fun _ _ => True := h.post fun _ _ _ => trivial

/-- What is at home nowhere may be counted as at home somewhere. -/
theorem Triple.widen {x : Eval α} {Q : α → World → Prop} (h : Triple g homes none P x Q)
    (home : Option ScopeId) : Triple g homes home P x Q :=
  ⟨fun w => (h.grows w).widen home, h.keeps⟩

/-- Whatever survives how the code lets the world grow can be kept beside its assertions. -/
theorem Triple.frame {x : Eval α} {Q : α → World → Prop} {R : World → Prop}
    (h : Triple g homes home P x Q) (hr : ∀ w w', Grows home w w' → R w → R w') :
    Triple g homes home (fun w => R w ∧ P w) x fun a w => R w ∧ Q a w where
  grows := h.grows
  keeps w hob hs hp := by
    obtain ⟨hs', hres⟩ := h.keeps w hob hs hp.2
    exact ⟨hs', fun a ha => ⟨hr _ _ (h.grows w) hp.1, hres a ha⟩⟩

/-- **A stable assertion is framed**: it is still true after what leaves the scopes alone. -/
theorem Triple.stable {x : Eval α} {Q : α → World → Prop} [Stable P]
    (h : Triple g homes none P x Q) : Triple g homes none P x fun a w => P w ∧ Q a w :=
  (h.frame fun _ _ => Stable.keep).pre fun _ hp => ⟨hp, hp⟩

/-- What is run for its effects at home nowhere leaves a stable assertion as it was. -/
theorem Triple.aside {x : Eval α} [Stable P] (h : Triple g homes none P x fun _ _ => True)
    (home : Option ScopeId) : Triple g homes home P x fun _ => P :=
  (h.stable.post fun _ _ hp => hp.1).widen home

/-- Both cases of an assertion lead to the same. -/
theorem triple_or {x : Eval α} {Q : α → World → Prop} (h : Triple g homes home P x Q)
    (h' : Triple g homes home P' x Q) : Triple g homes home (fun w => P w ∨ P' w) x Q where
  grows := h.grows
  keeps w hob hs hp := hp.elim (h.keeps w hob hs) (h'.keeps w hob hs)

/-- What is never reached. -/
theorem triple_never {x : Eval α} {Q : α → World → Prop} (hg : ∀ w, Grows home w (x w).2) :
    Triple g homes home (fun _ => False) x Q := ⟨hg, fun _ _ _ h => h.elim⟩

/-- A part of the assertion that is not about the world can be used as a fact; how the world grows has
to be known without it. -/
theorem triple_given {φ : Prop} {x : Eval α} {Q : α → World → Prop}
    (hg : ∀ w, Grows home w (x w).2) (h : φ → Triple g homes home P x Q) :
    Triple g homes home (fun w => φ ∧ P w) x Q :=
  ⟨hg, fun w hob hs hp => (h hp.1).keeps w hob hs hp.2⟩

/-- So can the witness of an assertion that there is one. -/
theorem triple_exists {ι : Type} {x : Eval α} {P : ι → World → Prop} {Q : α → World → Prop}
    (hg : ∀ w, Grows home w (x w).2) (h : ∀ i, Triple g homes home (P i) x Q) :
    Triple g homes home (fun w => ∃ i, P i w) x Q :=
  ⟨hg, fun w hob hs ⟨i, hp⟩ => (h i).keeps w hob hs hp⟩

/-! ## Sequences -/

/-- A result of which the assertion is true already. -/
theorem triple_pure {a : α} {Q : α → World → Prop} (h : ∀ w, P w → Q a w) :
    Triple g homes home P (pure a) Q where
  grows w := .refl home w
  keeps w _ hs hp := ⟨hs, fun b hb => by
    cases hb
    exact h w hp⟩

/-- **One computation after the other**, with an assertion in the middle. -/
theorem triple_then {x : Eval α} {k : α → Eval β} {Q : α → World → Prop}
    {R : β → World → Prop} (hx : Triple g homes home P x Q)
    (hk : ∀ a, Triple g homes home (Q a) (k a) R) : Triple g homes home P (x >>= k) R where
  grows w := by
    have first := hx.grows w
    rw [bind_run]
    rcases hr : x w with ⟨stop | a, w'⟩ <;> rw [hr] at first
    · exact first
    · exact first.trans ((hk a).grows w')
  keeps w := by
    have first := hx.keeps w
    rw [bind_run]
    rcases hr : x w with ⟨stop | a, w'⟩ <;> rw [hr] at first
    · intro hob hs hp
      exact ⟨(first hob hs hp).1, nofun⟩
    · intro hob hs hp
      obtain ⟨hs', hq⟩ := first (hob.before ((hk a).grows w')) hs hp
      exact (hk a).keeps w' hob hs' (hq a rfl)

/-- After a part that is at home nowhere the assertion still holds. -/
theorem triple_bind [Stable P] {x : Eval α} {k : α → Eval β} {Q : α → World → Prop}
    {R : β → World → Prop} (hx : Triple g homes none P x Q)
    (hk : ∀ a, Triple g homes home (fun w => P w ∧ Q a w) (k a) R) :
    Triple g homes home P (x >>= k) R :=
  triple_then (hx.stable.widen home) hk

/-- Looking at the world gives the world that there is. -/
theorem triple_get {k : World → Eval β} {R : β → World → Prop}
    (hk : ∀ w₀, Triple g homes home (fun w => w = w₀ ∧ P w) (k w₀) R) :
    Triple g homes home P (get >>= k) R where
  grows w := (hk w).grows w
  keeps w hob hs hp := (hk w).keeps w hob hs ⟨rfl, hp⟩

/-- What is known of the result of a function of the result. -/
theorem triple_of_map {x : Eval α} {h : α → β} {Q : β → World → Prop}
    (ht : Triple g homes home P (h <$> x) Q) : Triple g homes home P x fun a => Q (h a) := by
  have run (w : World) : (h <$> x) w = (((x w).1).map h, (x w).2) := by
    rw [map_eq_pure_bind, bind_run]
    rcases x w with ⟨_ | _, _⟩ <;> rfl
  constructor
  · intro w
    have := ht.grows w
    rwa [run] at this
  · intro w hob hs hp
    have := ht.keeps w
    rw [run] at this
    obtain ⟨hs', hq⟩ := this hob hs hp
    refine ⟨hs', fun a ha => hq (h a) ?_⟩
    rw [ha]
    rfl

/-! ## Failures -/

/-- What ends early has no result to speak of. -/
theorem triple_throw (stop : Stop) {Q : α → World → Prop} :
    Triple g homes home P (throw stop) Q where
  grows w := .refl home w
  keeps _ _ hs _ := ⟨hs, nofun⟩

/-- A fault has to be one that is expected here. -/
theorem triple_fault {f : Fault} {Q : α → World → Prop}
    (h : ∀ w, w.Sound g homes → P w → g.Expects f) : Triple g homes home P (fault f) Q where
  grows w := .ofStore rfl ⟨[.raised f], rfl⟩
  keeps w _ hs hp := ⟨hs.note fun _ heq => by
    cases heq
    exact h w hs hp, nofun⟩

/-- An ordinary fault is expected everywhere. -/
theorem triple_ordinary {f : Fault} (h : f.Ordinary) {Q : α → World → Prop} :
    Triple g homes home P (fault f) Q :=
  triple_fault fun _ _ _ => Ground.expects_of_ordinary h

/-- The result of an operation that is known to fail with ordinary faults only. -/
theorem triple_raise {r : Except Fault α} :
    Triple g homes home (fun w => P w ∧ FailsWith Fault.Ordinary r) (ofExcept r)
      fun a w => P w ∧ r = .ok a := by
  cases r with
  | ok a => exact triple_pure fun _ hp => ⟨hp.1, rfl⟩
  | error f => exact triple_fault fun _ _ hp => Ground.expects_of_ordinary (hp.2 f rfl)

/-- A step that does not touch the world may fail with an ordinary fault. -/
theorem triple_ofExcept {r : Except Fault α} {Q : α → World → Prop}
    (hf : FailsWith Fault.Ordinary r) (h : ∀ a, r = .ok a → ∀ w, P w → Q a w) :
    Triple g homes home P (ofExcept r) Q :=
  triple_raise.weaken (fun _ _ hp => ⟨hp, hf⟩) fun a w _ hq => h a hq.2 w hq.1

/-- What becomes of a failure does not matter: no assertion is about failures. -/
theorem triple_mapStop {x : Eval α} {Q : α → World → Prop} (change : Stop → Stop)
    (h : Triple g homes home P x Q) : Triple g homes home P (x.mapStop change) Q where
  grows w := by
    rw [mapStop_run]
    exact h.grows w
  keeps w := by
    rw [mapStop_run]
    -- what ends the first part ends the whole
    intro hob hs hp
    obtain ⟨hs', hres⟩ := h.keeps w hob hs hp
    refine ⟨hs', fun a ha => hres a ?_⟩
    change ((x w).1).mapError change = .ok a at ha
    cases hr : (x w).1 with
    | error stop => rw [hr] at ha; exact nomatch ha
    | ok b =>
      rw [hr] at ha
      cases ha
      rfl

theorem triple_located {x : Eval α} {Q : α → World → Prop} (site : Site)
    (h : Triple g homes home P x Q) : Triple g homes home P (x.located site) Q :=
  triple_mapStop _ h

/-- Once settled, the result may be a failure, of which nothing is said. -/
theorem triple_settle {x : Eval α} {Q : α → World → Prop} (h : Triple g homes home P x Q) :
    Triple g homes home P (settle x) fun r w => ∀ a, r = .ok a → Q a w where
  grows w := by
    have first := h.grows w
    unfold settle
    rcases hr : x w with ⟨stop | a, w'⟩ <;> rw [hr] at first
    · cases stop <;> exact first
    · exact first
  keeps w := by
    have first := h.keeps w
    unfold settle
    rcases hr : x w with ⟨stop | a, w'⟩ <;> rw [hr] at first
    · cases stop with
      | unwind u =>
        intro hob hs hp
        refine ⟨(first hob hs hp).1, fun r hr' a ha => ?_⟩
        cases hr'
        exact nomatch ha
      | _ =>
        intro hob hs hp
        refine ⟨(first hob hs hp).1, fun r hr' => ?_⟩
        exact nomatch hr'
    · intro hob hs hp
      refine ⟨(first hob hs hp).1, fun r hr' b hb => ?_⟩
      cases hr'
      cases hb
      exact (first hob hs hp).2 a rfl

/-- To resume gives back what was settled. -/
theorem triple_resume {r : Except Unwind α} {Q : α → World → Prop}
    (h : ∀ a, r = .ok a → ∀ w, P w → Q a w) : Triple g homes home P (resume r) Q := by
  cases r with
  | ok a => exact triple_pure (h a rfl)
  | error u => exact triple_throw _

theorem triple_loopBody {x : Eval Unit} {Q : Unit → World → Prop}
    (h : Triple g homes home P x Q) :
    Triple g homes home P (loopBody x) fun _ _ => True := by
  refine triple_then (triple_settle h).any fun outcome => ?_
  split
  · exact triple_pure fun _ _ => trivial
  · exact triple_pure fun _ _ => trivial
  · exact triple_pure fun _ _ => trivial
  · exact triple_throw _

theorem triple_returning {x : Eval Unit} {Q : Unit → World → Prop}
    (h : Triple g homes home P x Q) :
    Triple g homes home P (returning x) fun _ _ => True := by
  refine triple_then (triple_settle h).any fun outcome => ?_
  split
  · exact triple_pure fun _ _ => trivial
  · exact triple_resume fun _ _ _ _ => trivial

/-! ## Repetition -/

/-- A loop keeps a stable assertion if each step does. -/
theorem triple_forEach [Stable P] {step : α → Eval Bool} (items : List α)
    (h : ∀ a ∈ items, Triple g homes none P (step a) fun _ _ => True) :
    Triple g homes none P (forEach step items) fun _ _ => True := by
  induction items with
  | nil => exact triple_pure fun _ _ => trivial
  | cons item rest ih =>
    refine triple_bind (h item List.mem_cons_self) fun goesOn => ?_
    split
    · exact (ih fun a ha => h a (List.mem_cons_of_mem _ ha)).pre fun _ hp => hp.1
    · exact triple_pure fun _ _ => trivial

theorem triple_forM [Stable P] {step : α → Eval Unit} (items : List α)
    (h : ∀ a ∈ items, Triple g homes none P (step a) fun _ _ => True) :
    Triple g homes none P (items.forM step) fun _ _ => True := by
  induction items with
  | nil => exact triple_pure fun _ _ => trivial
  | cons item rest ih =>
    exact triple_bind (h item List.mem_cons_self) fun _ =>
      (ih fun a ha => h a (List.mem_cons_of_mem _ ha)).pre fun _ hp => hp.1

/-- What is stable and true of one result is still true after the others. -/
theorem triple_mapM [Stable P] {step : α → Eval β} {Q : β → World → Prop} [∀ b, Stable (Q b)]
    (items : List α) (h : ∀ a ∈ items, Triple g homes none P (step a) Q) :
    Triple g homes none P (items.mapM step) fun found w => ∀ b, b ∈ found → Q b w := by
  induction items with
  | nil => exact triple_pure fun _ _ => nofun
  | cons item rest ih =>
    rw [List.mapM_cons]
    refine triple_bind (h item List.mem_cons_self) fun b => ?_
    refine triple_bind ((ih fun a ha => h a (List.mem_cons_of_mem _ ha)).pre fun _ hp => hp.1)
      fun bs => triple_pure fun w hw x hx => ?_
    rcases List.mem_cons.mp hx with rfl | hx
    · exact hw.1.2
    · exact hw.2 x hx

/-- A fold, with an assertion of what has been found so far. -/
theorem triple_foldlM [Stable P] {step : β → α → Eval β} {Q : β → World → Prop}
    [∀ b, Stable (Q b)] (items : List α)
    (h : ∀ b, ∀ a ∈ items, Triple g homes none (fun w => P w ∧ Q b w) (step b a) Q) (b : β) :
    Triple g homes none (fun w => P w ∧ Q b w) (items.foldlM step b) Q := by
  induction items generalizing b with
  | nil => exact triple_pure fun _ hp => hp.2
  | cons item rest ih =>
    rw [List.foldlM_cons]
    exact triple_bind (h b item List.mem_cons_self) fun b' =>
      (ih (fun b a ha => h b a (List.mem_cons_of_mem _ ha)) b').pre fun _ hp => ⟨hp.1.1, hp.2⟩

end Rules

/-! ## The parts of the world -/

section Parts

variable {g : Ground} {homes : List ScopeId} {home : Option ScopeId} {α : Type}
  {P : World → Prop}

/-- A change of the store has to keep it sound, and to stay at home. -/
theorem triple_updateStore {change : Store → α × Store} {Q : α → World → Prop}
    (hg : ∀ w : World, Grows home w { w with store := (change w.store).2 })
    (h : ∀ w, w.Sound g homes → P w →
      World.Sound g homes { w with store := (change w.store).2 } ∧
        Q (change w.store).1 { w with store := (change w.store).2 }) :
    Triple g homes home P (updateStore change) Q where
  grows := hg
  keeps w _ hs hp := by
    obtain ⟨hs', hq⟩ := h w hs hp
    exact ⟨hs', fun a ha => by
      cases ha
      exact hq⟩

/-- A change of the streams has to put nothing in that is not sound. -/
theorem triple_updateStreams {change : Streams → α × Streams} {Q : α → World → Prop}
    (h : ∀ w, w.Sound g homes → P w →
      (change w.streams).2.Carries (Closure.Founded g homes w.store) ∧
        Q (change w.streams).1 { w with streams := (change w.streams).2 }) :
    Triple g homes home P (updateStreams change) Q where
  grows w := .ofStore rfl ⟨[], rfl⟩
  keeps w _ hs hp := by
    obtain ⟨hc, hq⟩ := h w hs hp
    exact ⟨hs.changeStreams hc, fun a ha => by
      cases ha
      exact hq⟩

/-- The cache holds no closures. -/
theorem triple_updateModules (change : ModuleCache → ModuleCache) :
    Triple g homes home P (updateModules change) fun _ _ => True where
  grows _ := .ofStore rfl ⟨[], rfl⟩
  keeps _ _ hs _ := ⟨{ hs with }, fun _ _ => trivial⟩

/-- The journal is not about soundness, except where a failure is raised. -/
theorem triple_note {e : Event} (he : ∀ f, e ≠ .raised f) :
    Triple g homes home P (note e) fun _ _ => True where
  grows _ := .ofStore rfl ⟨[e], rfl⟩
  keeps _ _ hs _ := ⟨hs.note fun f heq => absurd heq (he f), fun _ _ => trivial⟩

/-- The code of a module starts to run: it may be taken to be orderly. -/
theorem triple_running [Stable P] {path : String} {code : Operation} {x : Eval α}
    {Q : α → World → Prop} (hg : ∀ w, Grows home w (x w).2)
    (h : code.Orderly g.early → Triple g homes home P x Q) :
    Triple g homes home P (note (.running path code) >>= fun _ => x) Q where
  grows w := by
    have noted : Grows home w (w.note (.running path code)) := .ofStore rfl ⟨[_], rfl⟩
    exact noted.trans (hg _)
  keeps w hob hs hp := by
    obtain ⟨events, he⟩ := (hg (w.note (.running path code))).journal
    have orderly : code.Orderly g.early := hob path code (by
      show _ ∈ (x (w.note (.running path code))).2.journal
      rw [he]
      exact List.mem_append_right events List.mem_cons_self)
    have noted : Grows none w (w.note (.running path code)) := .ofStore rfl ⟨[_], rfl⟩
    exact (h orderly).keeps _ hob (hs.note nofun) (Stable.keep noted hp)

theorem triple_newIdentity :
    Triple g homes home P (updateStore Store.newIdentity) fun _ _ => True :=
  have grows (home : Option ScopeId) (w : World) :
      Grows home w { w with store := w.store.newIdentity.2 } :=
    ⟨Nat.le_refl _, fun _ _ _ => rfl, fun _ _ h _ => h, [], rfl⟩
  triple_updateStore (grows home) fun w hs _ =>
    ⟨hs.changeScopes (grows none w) nofun rfl, trivial⟩

/-- A change of the environment may be refused, for reasons that are known. -/
theorem triple_tryEnvironment {ε : Type} {change : Environment → Except ε Environment}
    {φ : ε → Prop} (hf : ∀ e, FailsWith φ (change e)) :
    Triple g homes home P (tryEnvironment change) fun r _ => FailsWith φ r := by
  constructor
  · intro w
    rw [tryEnvironment, get_bind_run]
    cases change w.environment with
    | error e => exact .refl home w
    | ok environment => exact .ofStore rfl ⟨[], rfl⟩
  · intro w
    have hfail := hf w.environment
    rw [tryEnvironment, get_bind_run]
    cases hr : change w.environment with
    | error e =>
      rw [hr] at hfail
      intro _ hs _
      refine ⟨hs, fun r ha => ?_⟩
      cases ha
      exact failsWith_error (hfail e rfl)
    | ok environment =>
      intro _ hs _
      refine ⟨{ hs with }, fun r ha => ?_⟩
      cases ha
      exact failsWith_ok

/-- A change of a cell that amounts to an assignment of an admitted value, if it changes anything. -/
theorem triple_tryCell {ε : Type} {c : CellId} {change : Cell → Except ε Cell} {φ : ε → Prop}
    (hf : ∀ cell, FailsWith φ (change cell))
    (h : ∀ cell cell', change cell = .ok cell' → cell' = cell ∨
      ∃ v, cell.assign v = .ok cell' ∧ ∀ w, P w →
        cell.value.Carries (Closure.Founded g homes w.store) →
          v.Carries (Closure.Founded g homes w.store)) :
    Triple g homes home P (tryCell c change) fun r _ => FailsWith φ r := by
  constructor
  · intro w
    rw [tryCell_run, Store.changeCell]
    cases hc : w.store.cell? c with
    | none => exact .refl home w
    | some cell =>
      dsimp only
      cases hr : change cell with
      | error e => exact .refl home w
      | ok cell' =>
        rcases h cell cell' hr with rfl | ⟨v, hv, -⟩
        · show Grows home w { w with store := w.store.setCell c cell' }
          rw [Store.setCell_self hc]
          exact .refl home w
        · exact .assign home hc hv
  · intro w
    rw [tryCell_run, Store.changeCell]
    cases hc : w.store.cell? c with
    | none =>
      intro _ hs _
      refine ⟨hs, fun r ha => ?_⟩
      cases ha
      exact failsWith_ok
    | some cell =>
      dsimp only
      cases hr : change cell with
      | error e =>
        intro _ hs _
        refine ⟨hs, fun r ha => ?_⟩
        cases ha
        exact failsWith_error (hf cell e hr)
      | ok cell' =>
        intro _ hs hp
        refine ⟨?_, fun r ha => ?_⟩
        · show World.Sound g homes { w with store := w.store.setCell c cell' }
          rcases h cell cell' hr with rfl | ⟨v, hv, hadm⟩
          · rw [Store.setCell_self hc]
            exact hs
          · exact hs.assign hc hv (hadm w hp (hs.cells c cell hc))
        · cases ha
          exact failsWith_ok

/-! ## Streams -/

/-- A value that is put out has to be sound. -/
theorem triple_put (ports : Ports) (v : Value) :
    Triple g homes home (World.Admits g homes [v]) (put ports v) fun _ _ => True :=
  triple_updateStreams fun _ hs hp =>
    ⟨Streams.carries_put hs.queues ports.values hp.head, trivial⟩

/-- Bytes always are. -/
theorem triple_writeBytes (ports : Ports) (bytes : List UInt8) :
    Triple g homes home P (writeBytes ports bytes) fun _ _ => True :=
  triple_updateStreams fun _ hs _ => ⟨Streams.carries_write hs.queues ports.bytes bytes, trivial⟩

theorem triple_newQueue :
    Triple g homes home P (updateStreams fun s => s.newQueue []) fun _ _ => True :=
  triple_updateStreams fun _ hs _ => ⟨Streams.carries_newQueue hs.queues nofun, trivial⟩

theorem triple_newBuffer :
    Triple g homes home P (updateStreams Streams.newBuffer) fun _ _ => True :=
  triple_updateStreams fun _ hs _ => ⟨hs.queues, trivial⟩

/-- What is taken from a queue is admitted. -/
theorem triple_takeFrom (q : QueueId) :
    Triple g homes home P (takeFrom q) fun next w => w.Admits g homes next.toList := by
  refine triple_updateStreams fun (w : World) hs _ => ?_
  cases hn : w.streams.next? q with
  | none => exact ⟨hs.queues, World.Admits.nil⟩
  | some v => exact ⟨Streams.carries_skip hs.queues q,
      World.Admits.only (Streams.carries_next? hs.queues hn)⟩

/-- Values from a queue are sound when they are taken. -/
theorem triple_takeEach [Stable P] {step : Value → Eval Bool}
    (h : ∀ v, Triple g homes none (fun w => P w ∧ w.Admits g homes [v]) (step v)
      fun _ _ => True) (q : QueueId) (count : Nat) :
    Triple g homes none P (takeEach q step count) fun _ _ => True := by
  induction count with
  | zero => exact triple_pure fun _ _ => trivial
  | succ count ih =>
    refine triple_bind (triple_takeFrom q) fun next => ?_
    cases next with
    | none => exact triple_pure fun _ _ => trivial
    | some v =>
      refine triple_bind (h v) fun goesOn => ?_
      split
      · exact ih.pre fun _ hp => hp.1.1
      · exact triple_pure fun _ _ => trivial

/-- And so are those from the input. -/
theorem triple_eachInput [Stable P] {step : Value → Eval Bool} (ports : Ports)
    (h : ∀ v, Triple g homes none (fun w => P w ∧ w.Admits g homes [v]) (step v)
      fun _ _ => True) : Triple g homes none P (eachInput ports step) fun _ _ => True := by
  unfold eachInput
  split
  · exact triple_pure fun _ _ => trivial
  · exact triple_get fun w₀ => (triple_takeEach h _ _).pre fun _ hp => hp.2

/-! ## Scopes -/

/-- A fresh variable. -/
theorem triple_declare [Stable P] (name : String) :
    Triple g homes none P (updateStore fun s => s.declare name) fun _ _ => True :=
  triple_updateStore (fun w => (evolves_declare name w : Evolves _ none [] _ _).grows)
    fun _ hs _ => ⟨hs.declare name, trivial⟩

/-- A scope of one's own: what is done at home in it leaves all other scopes alone. -/
theorem triple_fresh {k : ScopeId → Eval α} (P' : ScopeId → World → Prop)
    (hp : ∀ w, w.Sound g homes → P w → P' ⟨w.store.scopes.size⟩
      { w with store := (w.store.newScope []).2 })
    (h : ∀ scope, Triple g (scope :: homes) (some scope) (P' scope) (k scope) fun _ _ => True) :
    Triple g homes none P (updateStore (fun s => s.newScope []) >>= k) fun _ _ => True where
  grows w := .ofFresh (.newScope none w []) (Nat.le_refl _) ((h _).grows _)
  keeps w hob hs hpre := by
    obtain ⟨hs', -⟩ := (h ⟨w.store.scopes.size⟩).keeps
      { w with store := (w.store.newScope []).2 } hob hs.enter (hp w hs hpre)
    exact ⟨hs'.leave, fun _ _ => trivial⟩

end Parts

end ValueShell
