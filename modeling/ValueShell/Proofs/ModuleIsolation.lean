/-
  Modules are isolated from whoever imports them.

  Two frames at the top, of sessions that started alike, import the module at the same path.  The sessions
  may have run anything before and may have bound anything; what they share is the builtins, the library,
  the environment and the files.  And they share what the shell does not decide: what the programs do
  that it starts, and in which order stages come that run at the same time.  Then the two loads do the same:
  they end in the same way, put out the same, load the same modules, and export the same names with the
  same values, but for the numbers of what the module makes.

  The matching says that nothing that was there before stands for anything, except for the builtins and
  the outputs.  So an import could not do the same in both sessions if it looked at anything else.  That it
  changes nothing else either, shows one more field of the likeness of stores: what is matched with nothing
  is never written.
-/
import ValueShell.Proofs.FixedBindings
import ValueShell.Proofs.Schedules
import ValueShell.Proofs.SelfLikeness

namespace ValueShell

open Eval

/-! ## Frames that import -/

/-- **A frame at the top that can import**, of a session that started as `s` did: no module is known and
none is being loaded, there is no input, and the outputs are there. -/
structure Session.Imports (s : Session) (f : Frame) (w : World) : Prop where
  setting : f.setting = s.setting
  builtins : s.KeepsBuiltins w
  top : f.loading = []
  nothingLoaded : w.modules = []
  noInput : f.ports.input = none
  values : ∀ q, f.ports.values = .queue q → q.index < w.streams.queues.size
  bytes : ∀ b, f.ports.bytes = .buffer b → b.index < w.streams.buffers.size

/-- The outputs are of the same kinds. -/
structure Ports.SameKinds (p p' : Ports) : Prop where
  values : p.values = .standard ↔ p'.values = .standard
  bytes : p.bytes = .standard ↔ p'.bytes = .standard

/-- Code sees the same around it. -/
structure World.SameSurroundings (w w' : World) : Prop where
  environment : w.environment = w'.environment
  files : w.files = w'.files
  input : w.streams.input = w'.streams.input
  /-- the programs that will be started do the same -/
  programs : w.streams.programs = w'.streams.programs

/-! ## What is compared -/

/-- **What the builtins and the outputs are is matched, and what is made from now on**, nothing else. -/
def Matching.sinceImport (s : Session) (f f' : Frame) (w w' : World) (bound : Nat) : Matching where
  cells := .since w.store.cells.size w'.store.cells.size
    (fun i j => i = j ∧ ∃ name, s.world.store.find? s.setting.builtins name = some ⟨i⟩)
    fun h h' => by rw [h.1, h'.1]
  scopes := .fresh w.store.scopes.size w'.store.scopes.size
  identities := .fresh w.store.nextIdentity w'.store.nextIdentity
  queues := .valueSinks f.ports f'.ports w.streams w'.streams
  buffers := .byteSinks f.ports f'.ports w.streams w'.streams
  seen i j := i = s.setting.builtins.index ∧ j = s.setting.builtins.index ∧
    i < w.store.scopes.size ∧ j < w'.store.scopes.size
  seen_unique := by
    rintro i j i' j' ⟨hi, hj, known, known'⟩ (made | ⟨hi', hj', -⟩)
    · have late := made.isNew
      omega
    · omega
  bound := bound
  source := Eq
  source_refl _ := rfl
  source_same := @Source.same_of_eq
  held := w.streams
  held' := w'.streams
  kept i := w.store.cells[i]?
  keptScopes i := w.store.scope ⟨i⟩
  strict := False

namespace Session

/-- What the builtins of a session are like: in order, and they refer to nothing. -/
structure Plain (s : Session) : Prop where
  sorted : Table.Sorted (s.world.store.scope s.setting.builtins)
  values : ∀ (ρ : Matching) c cell, s.world.store.cell? c = some cell → cell.value.Alike ρ cell.value

end Session

/-! ## The start of the two imports -/

section Start

variable {s : Session} {f f' : Frame} {w w' : World} {bound : Nat}

variable (plain : s.Plain) (h : s.Imports f w) (h' : s.Imports f' w')
include plain h h'

/-- **Nothing but the builtins is matched, and they are the same.** -/
theorem Store.alike_sinceImport : w.store.Alike (.sinceImport s f f' w w' bound) w'.store where
  cells c c' hc := by
    rcases hc.old_or_new with ⟨⟨same, name, found⟩, -⟩ | ⟨late, late'⟩
    · obtain ⟨cell, before, -, now⟩ := h.builtins.cells name c found
      obtain ⟨cell', before', -, now'⟩ := h'.builtins.cells name c found
      cases before.symm.trans before'
      obtain ⟨i⟩ := c
      obtain ⟨j⟩ := c'
      obtain rfl : i = j := same
      rw [now, now']
      exact .some ⟨plain.values _ _ _ before, rfl, rfl⟩
    · rw [Store.cell?_eq_none late, Store.cell?_eq_none late']
      exact .none
  scopes t t' ht := by
    rcases ht with made | ⟨builtins, builtins', -⟩
    · obtain ⟨late, late'⟩ := made.isNew
      rw [Store.scope_eq_nil late, Store.scope_eq_nil late']
      exact .nil
    · obtain rfl : t = s.setting.builtins := ScopeId.eq_of_index builtins
      obtain rfl : t' = s.setting.builtins := ScopeId.eq_of_index builtins'
      rw [h.builtins.scope, h'.builtins.scope]
      refine List.forall₂_same.mpr fun e he => ⟨rfl, ?_⟩
      obtain ⟨name, c⟩ := e
      have found := plain.sorted.find?_of_mem he
      obtain ⟨cell, -, -, now⟩ := h.builtins.cells name c found
      obtain ⟨cell', -, -, now'⟩ := h'.builtins.cells name c found
      refine .old ⟨⟨rfl, name, found⟩, ?_, ?_⟩
      · exact (Array.getElem?_eq_some_iff.mp now).1
      · exact (Array.getElem?_eq_some_iff.mp now').1
  cellsInStep := Pairing.inStep_start _
  scopesInStep := Pairing.inStep_start _
  identitiesInStep := Pairing.inStep_start _
  fits strict := strict.elim
  kept c alone := rfl
  keptScopes t alone := rfl

omit plain h h' in
theorem Streams.alike_sinceImport (around : w.SameSurroundings w') :
    w.streams.Alike (.sinceImport s f f' w w' bound) w'.streams :=
  .start ⟨rfl, rfl⟩ ⟨rfl, rfl⟩ ⟨rfl, rfl⟩ around.input around.programs

omit plain in
theorem Ports.alike_sinceImport (kinds : f.ports.SameKinds f'.ports) :
    f.ports.Alike (.sinceImport s f f' w w' bound) f'.ports where
  input := by
    rw [h.noInput, h'.noInput]
    exact .none
  values := by
    have same := kinds.values
    cases hv : f.ports.values with
    | standard =>
      rw [same.mp hv]
      exact .standard
    | queue q =>
      cases hv' : f'.ports.values with
      | standard => exact nomatch hv.symm.trans (same.mpr hv')
      | queue q' => exact .queue (.old ⟨⟨hv, hv'⟩, h.values q hv, h'.values q' hv'⟩)
  bytes := by
    have same := kinds.bytes
    cases hb : f.ports.bytes with
    | standard =>
      rw [same.mp hb]
      exact .standard
    | buffer b =>
      cases hb' : f'.ports.bytes with
      | standard => exact nomatch hb.symm.trans (same.mpr hb')
      | buffer b' => exact .buffer (.old ⟨⟨hb, hb'⟩, h.bytes b hb, h'.bytes b' hb'⟩)

end Start

/-! ## The ends of the two imports -/

namespace Streams

end Streams

/-- **Nothing that was there is touched**: every variable is what it was, and every scope has the names
that it had, for the same variables. -/
structure World.Spares (w w' : World) : Prop where
  cells : ∀ c cell, w.store.cell? c = some cell → w'.store.cell? c = some cell
  scopes : ∀ scope : ScopeId, scope.index < w.store.scopes.size →
    w'.store.scope scope = w.store.scope scope

theorem Stop.Alike.eq {ρ : Matching} (exact : ∀ s s', ρ.source s s' → s = s') {stop stop' : Stop}
    (h : stop.Alike ρ stop') : stop = stop' := by
  cases h with
  | unwind hu =>
    cases hu with
    | signal s => rfl
    | exception he => rw [he.eq exact]
  | exit | blocked | outOfFuel => rfl

namespace Session

variable {s : Session} {f f' : Frame} {w w' : World} {schedule : Schedule}

/-- **The two imports agree**, if stages that run at the same time do the same in both. -/
theorem Imports.alike (lawful : schedule.Lawful) (plain : s.Plain) (h : s.Imports f w)
    (h' : s.Imports f' w') (kinds : f.ports.SameKinds f'.ports) (around : w.SameSurroundings w')
    (fuel : Nat) (path : String) :
    let x := (Runner.under schedule fuel).fetchModule f path w
    let y := (Runner.under schedule fuel).fetchModule f' path w'
    let ρ := Matching.sinceImport s f f' w w' x.2.store.scopes.size
    Ends (Stop.Alike ρ) ρ.Scope x.1 y.1 ∧ x.2.Alike ρ y.2 := by
  intro x y ρ
  have frames : f.AlikeForModules ρ f' := {
    library := by rw [h.setting, h'.setting]
    builtins := by
      rw [h.setting, h'.setting]
      exact .inr ⟨rfl, rfl, h.builtins.known, h'.builtins.known⟩
    ports := Ports.alike_sinceImport h h' kinds
    loading := by rw [h.top, h'.top] }
  have start : w.Alike ρ w' := {
    store := Store.alike_sinceImport plain h h'
    streams := Streams.alike_sinceImport around
    modules := by
      rw [h.nothingLoaded, h'.nothingLoaded]
      exact .nil
    environment := around.environment
    files := around.files }
  have within : ρ.Within x.2 := ⟨Nat.le_refl _, fun _ _ _ _ _ strict => strict.elim⟩
  have steady := Runner.under_steady lawful fuel
  exact Runner.agree_fetchModule (Runner.under_alike lawful fuel) frames path w w' start within

/-- An import touches nothing that was there. -/
theorem Imports.spares (lawful : schedule.Lawful) (plain : s.Plain) (h : s.Imports f w) (fuel : Nat)
    (path : String) : w.Spares ((Runner.under schedule fuel).fetchModule f path w).2 := by
  have steady := Runner.under_steady lawful fuel
  have onward : Onward w _ := (Runner.climbs_fetchModule (Runner.under schedule fuel) f path).onward w
  -- the import is compared with itself: what is matched with nothing is as it was
  obtain ⟨-, after⟩ := h.alike lawful plain h ⟨Iff.rfl, Iff.rfl⟩ ⟨rfl, rfl, rfl, rfl⟩ fuel path
  refine ⟨fun c cell hc => ?_, fun scope known =>
    after.store.keptScopes scope fun j made => Nat.not_lt_of_le made.isNew.1 known⟩
  by_cases builtin : ∃ name, s.world.store.find? s.setting.builtins name = some c
  · obtain ⟨name, found⟩ := builtin
    obtain ⟨constant, -, readOnly, now⟩ := h.builtins.cells name c found
    cases hc.symm.trans now
    exact onward.constant c cell hc readOnly
  · rw [after.store.kept c]
    · exact hc
    · rintro c' matched
      rcases matched.old_or_new with ⟨⟨-, found⟩, -⟩ | ⟨late, -⟩
      · exact builtin found
      · exact Nat.not_lt_of_le late (Array.getElem?_eq_some_iff.mp hc).1

/-- Any later state of a session can import, if no module is known yet. -/
theorem Later.imports {t : Session} (later : s.Later t) (protects : s.Protects)
    (nothingLoaded : t.world.modules = []) (source : Source) :
    s.Imports (t.frame source .standard ⟨t.world.store.scopes.size⟩) t.entered where
  setting := later.settled.1
  builtins := (later.keepsBuiltins protects).grows (grows_entered none t) nofun
  top := rfl
  nothingLoaded := nothingLoaded
  noInput := rfl
  values := nofun
  bytes := nofun

end Session

end ValueShell
