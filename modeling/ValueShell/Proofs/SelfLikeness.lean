/-
  What is like itself.

  The matching here says that every number stands for itself, so what is alike under it is the same.  But not
  everything is like itself: a scope that a value refers to has to be below the bound, and a lambda that
  a value carries has to be one that the matching admits.  So for a world to be like itself means that
  nothing in it refers to a scope that there is not, and, where the matching is strict, that no name in it
  breaks its promise.  A run that is compared with itself shows that this stays so.
-/
import ValueShell.Proofs.SessionStates
import ValueShell.Proofs.Watching

namespace ValueShell

open Eval

/-! ## The matching -/

/-- **Every number stands for itself.** -/
def Matching.itself (bound : Nat) (strict : Prop) : Matching where
  cells := .same
  scopes := .same
  identities := .same
  queues := .same
  buffers := .same
  seen _ _ := False
  seen_unique := nofun
  bound := bound
  source := Eq
  source_refl _ := rfl
  source_same := @Source.same_of_eq
  held := .empty
  held' := .empty
  kept _ := none
  keptScopes _ := []
  strict := strict

namespace Matching

variable {bound : Nat} {strict : Prop}

/-- A scope below the bound is matched with itself. -/
theorem scope_itself {s : ScopeId} (h : s.index < bound) : (itself bound strict).Scope s s :=
  ⟨Pairing.rel_same.mpr rfl, h⟩

/-- Every scope is visible to itself. -/
theorem visible_itself (s : ScopeId) : (itself bound strict).Visible s s :=
  .inl (Pairing.rel_same.mpr rfl)

/-- A cell is matched with itself and no other. -/
theorem cell_itself {c c' : CellId} : (itself bound strict).Cell c c' ↔ c = c' := by
  obtain ⟨i⟩ := c
  obtain ⟨j⟩ := c'
  refine Pairing.rel_same.trans ⟨?_, ?_⟩
  · rintro rfl
    rfl
  · intro h
    exact congrArg CellId.index h

end Matching

section Itself

variable {bound : Nat} {strict : Prop}

/-- Where sources are matched exactly, alike places are equal. -/
theorem Site.Alike.eq {ρ : Matching} (exact : ∀ s s', ρ.source s s' → s = s') {s s' : Site}
    (h : s.Alike ρ s') : s = s' := by
  obtain ⟨source, span, label⟩ := s
  obtain ⟨source', span', label'⟩ := s'
  obtain ⟨same, rfl, rfl⟩ := h
  obtain rfl : source = source' := exact _ _ same
  rfl

theorem Exception.Alike.eq {ρ : Matching} (exact : ∀ s s', ρ.source s s' → s = s')
    {e e' : Exception} (h : e.Alike ρ e') : e = e' := by
  obtain ⟨fault, site⟩ := e
  obtain ⟨fault', site'⟩ := e'
  obtain ⟨rfl, hsite⟩ := h
  cases hsite with
  | none => rfl
  | some hs => rw [hs.eq exact]

/-- Closures that are alike under the identity are equal. -/
theorem Closure.Alike.eq {c c' : Closure} (h : c.Alike (.itself bound strict) c') : c = c' := by
  obtain ⟨id, lambda, captured, source, isFunction⟩ := c
  obtain ⟨id', lambda', captured', source', isFunction'⟩ := c'
  obtain ⟨hid, rfl, -, hcaptured, rfl, rfl⟩ := h
  obtain rfl : id = id' := Pairing.rel_same.mp hid
  obtain rfl : captured = captured' := ScopeId.eq_of_index (Pairing.rel_same.mp hcaptured.1)
  rfl

theorem Table.Alike.eq {α : Type} {t t' : Table α} (h : Table.Alike Eq t t') : t = t' := by
  rw [← List.forall₂_eq_eq_eq]
  exact h.imp fun e e' he => Prod.ext he.1 he.2

/-- **What is alike is the same.** -/
theorem Value.Alike.eq {v v' : Value} (h : v.Alike (.itself bound strict) v') : v = v' := by
  induction h with
  | text s => rfl
  | number n => rfl
  | bool b => rfl
  | @list vs vs' length items ih =>
    have same : vs = vs' := by
      rw [← List.forall₂_eq_eq_eq]
      exact List.forall₂_iff_zip.mpr ⟨length, fun hm => ih _ _ hm⟩
    rw [same]
  | @map es es' keys entries ih =>
    have same : es = es' := Table.Alike.eq (Value.Alike.tableOf keys fun e e' hm => ih e e' hm)
    rw [same]
  | function h =>
    cases h with
    | closure h => rw [h.eq]
    | builtin b => rfl
    | external name => rfl
  | ns h => rw [ScopeId.eq_of_index (Pairing.rel_same.mp h.1)]
  | exception id h => rw [h.eq fun _ _ same => same, Pairing.rel_same.mp id]

/-- So are cells. -/
theorem Cell.Alike.eq {c c' : Cell} (h : c.Alike (.itself bound strict) c') : c = c' := by
  obtain ⟨value, constraint, readOnly⟩ := c
  obtain ⟨value', constraint', readOnly'⟩ := c'
  obtain ⟨hv, rfl, rfl⟩ := h
  obtain rfl : value = value' := hv.eq
  rfl

/-- **And so are stores.** -/
theorem Store.Alike.eq {s s' : Store} (h : s.Alike (.itself bound strict) s') : s = s' := by
  obtain ⟨cells, scopes, next⟩ := s
  obtain ⟨cells', scopes', next'⟩ := s'
  obtain rfl : cells = cells' := by
    refine Array.ext_getElem? fun i => ?_
    have found := h.cells ⟨i⟩ ⟨i⟩ (Matching.cell_itself.mpr rfl)
    change Option.Rel _ cells[i]? cells'[i]? at found
    generalize cells[i]? = c at found
    generalize cells'[i]? = c' at found
    cases found with
    | none => rfl
    | some hc => rw [hc.eq]
  obtain rfl : scopes = scopes' := by
    have size : scopes.size = scopes'.size := Pairing.inStep_same.mp h.scopesInStep
    refine Array.ext size fun i hi hi' => ?_
    have entries := h.scopes ⟨i⟩ ⟨i⟩ (Matching.visible_itself _)
    change Table.Alike _ (scopes.getD i []) (scopes'.getD i []) at entries
    rw [Array.getD_eq_getD_getElem?, Array.getD_eq_getD_getElem?, Array.getElem?_eq_getElem hi,
      Array.getElem?_eq_getElem hi'] at entries
    exact Table.Alike.eq (entries.imp fun _ _ he => ⟨he.1, Matching.cell_itself.mp he.2⟩)
  obtain rfl : next = next' := Pairing.inStep_same.mp h.identitiesInStep
  rfl

/-! ## Stores, streams and ports -/

/-- A store is alike to itself if its values are. -/
theorem Store.alike_itself {s : Store}
    (cells : ∀ c cell, s.cell? c = some cell → cell.value.Alike (.itself bound strict) cell.value)
    (fits : strict → s.Fits) : s.Alike (.itself bound strict) s where
  cells c c' hc := by
    obtain rfl := Matching.cell_itself.mp hc
    cases hs : s.cell? c with
    | none => exact .none
    | some cell => exact .some ⟨cells c cell hs, rfl, rfl⟩
  scopes t t' ht := by
    obtain rfl : t = t' := by
      rcases ht with ht | ht
      · exact ScopeId.eq_of_index (Pairing.rel_same.mp ht)
      · exact ht.elim
    exact List.forall₂_same.mpr fun e _ => ⟨rfl, Matching.cell_itself.mpr rfl⟩
  cellsInStep := Pairing.inStep_same.mpr rfl
  scopesInStep := Pairing.inStep_same.mpr rfl
  identitiesInStep := Pairing.inStep_same.mpr rfl
  fits := fits
  kept c alone := absurd (Matching.cell_itself.mpr rfl) (alone c)
  keptScopes t alone := absurd (Pairing.rel_same.mpr rfl) (alone t.index)

/-- Every value that waits in a queue. -/
def Streams.Holds (s : Streams) (v : Value) : Prop :=
  ∃ (i : Nat) (q : Queue), s.queues[i]? = some q ∧ v ∈ q.values.toList

/-- So are streams. -/
theorem Streams.alike_itself {s : Streams} (values : ∀ v, s.Holds v → v.Alike (.itself bound strict) v) :
    s.Alike (.itself bound strict) s where
  queues k := by
    show Option.Rel _ s.queues[0 + k]? s.queues[0 + k]?
    cases hq : s.queues[0 + k]? with
    | none => exact .none
    | some q => exact .some ⟨List.forall₂_same.mpr fun v hv => values v ⟨_, q, hq, hv⟩, rfl⟩
  outlets _ _ h := h.elim
  untaken _ _ h := h.elim
  queuesInStep := Pairing.inStep_same.mpr rfl
  buffers _ := rfl
  byteOutlets _ _ h := h.elim
  buffersInStep := Pairing.inStep_same.mpr rfl
  standard := ⟨_, _, rfl, rfl, List.forall₂_same.mpr fun _ _ => rfl⟩
  errors := ⟨_, _, rfl, rfl, List.forall₂_same.mpr fun _ _ => rfl⟩
  input := rfl
  programs := rfl

theorem Streams.Alike.itself {s : Streams} (h : s.Alike (.itself bound strict) s) {v : Value}
    (held : s.Holds v) : v.Alike (.itself bound strict) v := by
  obtain ⟨i, q, hq, hv⟩ := held
  have found := h.queues i
  change Option.Rel _ s.queues[0 + i]? s.queues[0 + i]? at found
  rw [Nat.zero_add, hq] at found
  cases found with
  | some alike => exact List.forall₂_same.mp alike.values v hv

theorem Ports.alike_itself (p : Ports) : p.Alike (.itself bound strict) p := by
  obtain ⟨input, values, bytes⟩ := p
  refine ⟨?_, ?_, ?_⟩
  · cases input with
    | none => exact .none
    | some q => exact .some (Pairing.inStep_same.mpr rfl)
  · cases values with
    | standard => exact .standard
    | queue q => exact .queue (Pairing.rel_same.mpr rfl)
  · cases bytes with
    | standard => exact .standard
    | buffer b => exact .buffer (Pairing.rel_same.mpr rfl)

end Itself

/-! ## Sessions -/

namespace Session

variable {bound : Nat} {strict : Prop} {s : Session}

/-! ### The start -/

/-- The values of the builtins refer to nothing, and keep the promises of their names. -/
theorem alike_builtins (ρ : Matching) (processId : String) :
    ∀ b ∈ Builtin.bindings processId, b.2.Alike ρ b.2 ∧
      ∀ k, Constraint.forName? b.1 = some k → k.check b.2 = .ok () := by
  intro b hb
  rcases List.mem_append.mp hb with hb | hb
  · obtain ⟨builtin, -, rfl⟩ := List.mem_map.mp hb
    refine ⟨.function (.builtin builtin), fun k hk => ?_⟩
    rw [Constraint.forName?_function] at hk
    cases hk
    rfl
  · have plain (name : String) (v : Value) (h : Constraint.forName? name = none) (k : Constraint)
        (hk : Constraint.forName? name = some k) : k.check v = .ok () := nomatch h.symm.trans hk
    simp only [List.mem_cons, List.not_mem_nil, or_false] at hb
    rcases hb with rfl | rfl | rfl
    · exact ⟨.bool _, plain "true" _ (by decide)⟩
    · exact ⟨.bool _, plain "false" _ (by decide)⟩
    · exact ⟨.text _, plain "pid" _ (by decide)⟩

/-- Constants that are alike, and the variables there were. -/
theorem alike_bindConstants {ρ : Matching} (scope : ScopeId) {bindings : List (String × Value)}
    (constants : ∀ b ∈ bindings, b.2.Alike ρ b.2) {st : Store}
    (cells : ∀ c cell, st.cell? c = some cell → cell.value.Alike ρ cell.value) (c : CellId)
    (cell : Cell) (h : (st.bindConstants scope bindings).cell? c = some cell) :
    cell.value.Alike ρ cell.value := by
  induction bindings generalizing st with
  | nil => exact cells c cell h
  | cons b bindings ih =>
    refine ih (fun x hx => constants x (List.mem_cons_of_mem _ hx)) (fun c cell hc => ?_) h
    change (st.newCell (.constant b.2)).2.cell? c = some cell at hc
    rw [Store.cell?_newCell] at hc
    split at hc
    · cases hc
      exact constants b List.mem_cons_self
    · exact cells c cell hc

/-- Constants that keep the promises of their names. -/
theorem fits_bindConstants (scope : ScopeId) {bindings : List (String × Value)}
    (kept : ∀ b ∈ bindings, ∀ k, Constraint.forName? b.1 = some k → k.check b.2 = .ok ())
    {st : Store} (fits : st.Fits) : (st.bindConstants scope bindings).Fits := by
  induction bindings generalizing st with
  | nil => exact fits
  | cons b bindings ih =>
    refine ih (fun x hx => kept x (List.mem_cons_of_mem _ hx)) ?_
    refine (fits.newCell _).bind scope (st.honours_newCell fun k hk => ?_)
    exact ⟨kept b List.mem_cons_self k hk, .inr rfl⟩

section Start

variable (library : Library) (environment : Environment) (files : FileTree) (processId : String)

/-- Every variable there is at the start refers to nothing. -/
theorem alike_cell_start (ρ : Matching) (c : CellId) (cell : Cell)
    (h : (start library environment files processId).world.store.cell? c = some cell) :
    cell.value.Alike ρ cell.value := by
  obtain ⟨st, hst, hstart⟩ := start_eq library environment files processId
  rw [hstart] at h
  have found : st.cell? c = some cell := h
  rw [hst] at found
  have vacant : ∀ c cell, (Store.empty.newScope []).2.cell? c = some cell →
      cell.value.Alike ρ cell.value := fun c cell hc => nomatch hc
  exact alike_bindConstants ⟨0⟩ (fun b hb => (alike_builtins ρ processId b hb).1) vacant c cell
    found

/-- All names there are at the start keep their promises. -/
theorem fits_start : (start library environment files processId).world.store.Fits := by
  obtain ⟨st, hst, hstart⟩ := start_eq library environment files processId
  rw [hstart]
  refine Store.Fits.newScope ?_ fun _ he => nomatch he
  rw [hst]
  have empty : (Store.empty.newScope []).2.Fits := by
    intro scope e he
    rw [Store.scope_newScope] at he
    split at he
    · exact nomatch he
    · exact nomatch he
  exact fits_bindConstants ⟨0⟩ (fun b hb => (alike_builtins (.itself 0 True) processId b hb).2) empty

end Start

/-- **A session starts alike to itself.** -/
theorem alike_start {library : Library} {environment : Environment} {files : FileTree}
    {processId : String} :
    (start library environment files processId).world.Alike (.itself bound strict)
      (start library environment files processId).world where
  store := Store.alike_itself (alike_cell_start library environment files processId _)
    fun _ => fits_start library environment files processId
  streams := Streams.alike_itself fun v held => by
    obtain ⟨i, q, hq, -⟩ := held
    have none : Streams.empty.queues[i]? = none := Array.getElem?_empty
    exact nomatch none.symm.trans hq
  modules := .nil
  environment := rfl
  files := rfl

/-! ### Units -/

/-- The globals come right after the builtins. -/
theorem globals_start {library : Library} {environment : Environment} {files : FileTree}
    {processId : String} :
    let s := Session.start library environment files processId
    s.globals.index < s.world.store.scopes.size := by
  obtain ⟨st, -, hstart⟩ := Session.start_eq library environment files processId
  intro s
  show s.globals.index < _
  rw [show s = _ from hstart]
  exact Nat.lt_of_lt_of_eq (Nat.lt_succ_self _) (Array.size_push ..).symm

/-- The frame of a unit is like itself. -/
theorem frame_itself (hs : s.globals.index < bound) (source : Source) (ports : Ports)
    (upScope : ScopeId) :
    (s.frame source ports upScope).Alike (.itself bound strict) (s.frame source ports upScope) where
  library := rfl
  builtins := Matching.visible_itself _
  source := rfl
  localScope := Matching.scope_itself hs
  upScope := Matching.visible_itself _
  ports := ports.alike_itself
  label := rfl
  loading := rfl

/-- The world in which a unit starts is like itself. -/
theorem entered_itself (h : s.world.Alike (.itself bound strict) s.world) :
    s.entered.Alike (.itself bound strict) s.entered :=
  { h with store := h.store.newScope .nil fun _ _ he => nomatch he }

/-- **A run leads from worlds that are like themselves to such worlds.** -/
theorem operation_itself (h : s.world.Alike (.itself bound strict) s.world)
    (hs : s.globals.index < bound) {op : Operation}
    (admitted : (Code.operation op).Each (Matching.itself bound strict).Admits) {r : Runner}
    (hr : r.Alike (.itself bound strict) r) (source : Source) (ports : Ports) {w : World}
    (run : (r.operation op (s.frame source ports ⟨s.world.store.scopes.size⟩) s.entered).2 = w)
    (within : (Matching.itself bound strict).Within w) : w.Alike (.itself bound strict) w := by
  subst run
  exact (hr.operation op _ _ (frame_itself hs source ports _) admitted _ _ (entered_itself h) within).2

/-- A unit keeps a world alike to itself, under any runner that is alike to itself. -/
theorem evaluateBy_itself {r : Runner} (hr : r.Alike (.itself bound strict) r)
    (h : s.world.Alike (.itself bound strict) s.world)
    (hs : s.globals.index < bound) {source : Source} {ports : Ports}
    (admitted : ∀ op, s.compile source = .ok op →
      (Code.operation op).Each (Matching.itself bound strict).Admits)
    (within : (Matching.itself bound strict).Within (s.evaluateBy r source ports).2.world) :
    (s.evaluateBy r source ports).2.world.Alike (.itself bound strict)
      (s.evaluateBy r source ports).2.world := by
  unfold evaluateBy at within ⊢
  split
  · exact h
  · exact h
  · next op compiles =>
    simp only [compiles] at within
    rw [executeBy_state] at within ⊢
    exact operation_itself h hs (admitted op compiles) hr source ports rfl within

/-- In particular under the evaluator. -/
theorem evaluate_itself (h : s.world.Alike (.itself bound strict) s.world)
    (hs : s.globals.index < bound) {fuel : Nat} {source : Source} {ports : Ports}
    (admitted : ∀ op, s.compile source = .ok op →
      (Code.operation op).Each (Matching.itself bound strict).Admits)
    (within : (Matching.itself bound strict).Within (s.evaluate fuel source ports).2.world) :
    (s.evaluate fuel source ports).2.world.Alike (.itself bound strict)
      (s.evaluate fuel source ports).2.world :=
  evaluateBy_itself (Runner.ofFuel_alike fuel) h hs admitted within

end Session

end ValueShell
