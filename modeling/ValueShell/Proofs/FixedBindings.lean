/-
  What no code can change.

  A scope can be changed only by code at home in it (`Grows.kept`), and a cell only by assigning to it, which
  leaves all of it but its value.  Two things follow for all code, whatever it does and however it ends.

    * A call is at home in its own fresh scope alone.  So every namespace that was there before the call
      has the same names for the same cells after it.
    * No code is ever at home among the builtins: units are at home in the globals, calls and modules in
      fresh scopes.  And the builtins are read-only.  So they are at any moment of a session what they
      were when it started, and a module that starts sees all of them, because nothing is bound in its
      namespace yet and nothing is above it.
-/
import ValueShell.Proofs.SessionStates

namespace ValueShell

/-! ## Cells -/

/-- **Every cell is still there**, and only its value may differ. -/
def Store.KeepsCells (s s' : Store) : Prop :=
  ∀ c cell, s.cell? c = some cell → ∃ v, s'.cell? c = some { cell with value := v }

namespace Store.KeepsCells

theorem refl (s : Store) : s.KeepsCells s := fun _ cell h => ⟨cell.value, h⟩

theorem trans {s s' s'' : Store} (first : s.KeepsCells s') (later : s'.KeepsCells s'') :
    s.KeepsCells s'' := by
  intro c cell h
  obtain ⟨v, hv⟩ := first c cell h
  exact later c { cell with value := v } hv

theorem newCell (s : Store) (c : Cell) : s.KeepsCells (s.newCell c).2 :=
  fun _ cell h => ⟨cell.value, cell?_newCell_of_some s c h⟩

theorem assign {s : Store} {c : CellId} {cell cell' : Cell} {v : Value}
    (hc : s.cell? c = some cell) (hv : cell.assign v = .ok cell') :
    s.KeepsCells (s.setCell c cell') := by
  intro other old h
  rw [cell?_setCell]
  split
  · next same =>
    subst same
    cases hc.symm.trans h
    exact ⟨v, by rw [h, Cell.assign_eq hv]; rfl⟩
  · exact ⟨old.value, h⟩

end Store.KeepsCells

theorem Change.keepsCells {home : Option ScopeId} {loading : List String} {w w' : World}
    (h : Change home loading w w') : w.store.KeepsCells w'.store := by
  cases h with
  | newCell c => exact .newCell w.store c
  | assign hc hv => exact .assign hc hv
  | surroundings | raise | enter | imports | newScope | newIdentity | bind | unbind =>
    exact .refl _

/-- A run keeps every cell, however it ends. -/
theorem Evolves.keepsCells {e : Ending} {home : Option ScopeId} {loading : List String}
    {w w' : World} (h : Evolves e home loading w w') : w.store.KeepsCells w'.store := by
  induction h with
  | refl w | cut w => exact .refl w.store
  | stuck => exact .refl _
  | change h => exact h.keepsCells
  | trans _ _ first later => exact first.trans later
  -- a fresh scope and an entry in the cache are no cells
  | inside _ ih | loaded _ _ ih | failed _ _ ih | unsettled _ _ _ ih => exact ih

/-! ## Calls -/

/-- **Calls do not leak bindings.**  Whatever a closure does when it is called, by whomever and on whatever
arguments, and however the call ends: every scope that was there names the same cells, and of these
cells only the values may differ. -/
theorem call_keeps_bindings (fuel : Nat) (c : Closure) (args : List Value) (mode : CallMode)
    (f : Frame) (w : World) :
    let after := ((Runner.ofFuel fuel).call (.closure c) args mode f w).2.store
    (∀ scope : ScopeId, scope.index < w.store.scopes.size →
      after.scope scope = w.store.scope scope) ∧ w.store.KeepsCells after := by
  intro after
  have evolves := (Runner.ofFuel_contained fuel).call (.closure c) args mode f none w
  refine ⟨fun scope known => ?_, evolves.keepsCells⟩
  exact evolves.grows.kept scope known (Option.some_ne_none _).symm

/-- A block assigns to a captured variable `x`, and to `y`, which it has to make first. -/
theorem call_keeps_bindings_assigning :
    let outer : Table CellId := [("x", ⟨0⟩)]
    let w : World :=
      { World.start default default with store := ⟨#[.plain (.text "old")], #[outer], 0⟩ }
    let assigning (name : String) : Operation :=
      .assign ⟨[.named "" name default], none, default⟩ [.literal "new" default] default
    let c : Closure :=
      ⟨0, ⟨[], none, false, .chunk [assigning "x", assigning "y"] default, default⟩, ⟨0⟩, default, false⟩
    let after := ((Runner.ofFuel 5).call (.closure c) [] .block default w).2.store
    after.scope ⟨0⟩ = outer ∧ after.read ⟨0⟩ = .text "new" ∧ after.names ⟨1⟩ = ["args", "y"] := by
  intro outer w assigning c after
  have kept : after.scope ⟨0⟩ = w.store.scope ⟨0⟩ :=
    (call_keeps_bindings 5 c [] .block default w).1 ⟨0⟩ Nat.zero_lt_one
  exact ⟨kept, by rfl, by rfl⟩

/-! ## The builtins -/

theorem Grows.startModule (home : Option ScopeId) (w : World) (path : String) (op : Operation) :
    Grows home w (w.startModule path op) := by
  have begun : Grows home w (w.beginLoad path) := .beginLoad home w path
  have above := Grows.newScope home (w.beginLoad path) []
  exact (begun.trans above).trans (.ofStore rfl ⟨[.running path op], rfl⟩)

/-- **A module starts with the builtins alone**: what a plain name means there is the builtin of that
name. -/
theorem Frame.findPlain?_startModule {f : Frame} {w : World}
    (known : f.setting.builtins.index < w.store.scopes.size) (source : Source) (path : String)
    (op : Operation) (name : String) :
    (f.startModule w source path).findPlain? (w.startModule path op).store name =
      w.store.find? f.setting.builtins name := by
  have inner : (w.startModule path op).store.scope ⟨w.store.scopes.size⟩ = [] :=
    (Store.scope_newScope_of_lt _ [] (w.lt_size_beginLoad path)).trans
      (Store.scope_newScope_self w.store [])
  have above : (w.startModule path op).store.scope ⟨(w.beginLoad path).store.scopes.size⟩ = [] :=
    Store.scope_newScope_self _ []
  have builtins : (w.startModule path op).store.scope f.setting.builtins =
      w.store.scope f.setting.builtins :=
    (Grows.startModule none w path op).kept _ known (Option.some_ne_none _).symm
  show ((Table.find? ((w.startModule path op).store.scope ⟨w.store.scopes.size⟩) name).or
    (Table.find? ((w.startModule path op).store.scope ⟨(w.beginLoad path).store.scopes.size⟩) name)).or
      (Table.find? ((w.startModule path op).store.scope f.setting.builtins) name) = _
  rw [inner, above, builtins]
  rfl

namespace Session

variable {s t : Session} {w w' : World}

/-- **The builtins are what they were** in the session `s`: the same names for the same cells, all of them
read-only and unchanged. -/
structure KeepsBuiltins (s : Session) (w : World) : Prop where
  known : s.setting.builtins.index < w.store.scopes.size
  scope : w.store.scope s.setting.builtins = s.world.store.scope s.setting.builtins
  cells : ∀ name c, s.world.store.find? s.setting.builtins name = some c →
    ∃ cell, s.world.store.cell? c = some cell ∧ cell.readOnly = true ∧ w.store.cell? c = some cell

/-- Code that is not at home among the builtins keeps them. -/
theorem KeepsBuiltins.grows (h : s.KeepsBuiltins w) {home : Option ScopeId}
    (grows : Grows home w w') (away : home ≠ some s.setting.builtins) : s.KeepsBuiltins w' where
  known := Nat.lt_of_lt_of_le h.known grows.scopes
  scope := (grows.kept _ h.known away).trans h.scope
  cells := by
    intro name c found
    obtain ⟨cell, before, readOnly, now⟩ := h.cells name c found
    exact ⟨cell, before, readOnly, grows.constant c cell now readOnly⟩

/-- **A session that protects its builtins**: they are read-only, and the globals are another scope. -/
structure Protects (s : Session) : Prop where
  builtins : s.KeepsBuiltins s.world
  globals : s.globals ≠ s.setting.builtins

/-- Every session does when it starts. -/
theorem protects_start (library : Library) (environment : Environment) (files : FileTree)
    (processId : String) : (Session.start library environment files processId).Protects := by
  have sound : (Session.start library environment files processId).Sound fun _ => False :=
    sound_start
  refine ⟨⟨sound.known, rfl, fun name c found => ?_⟩, fun same => ?_⟩
  · obtain ⟨cell, here, readOnly⟩ := sound.constant name c found
    exact ⟨cell, here, readOnly, here⟩
  · exact sound.sealed (List.mem_singleton.mpr same.symm)

/-- Between units the builtins are what they were. -/
theorem Later.keepsBuiltins (h : s.Later t) (protects : s.Protects) : s.KeepsBuiltins t.world :=
  protects.builtins.grows h.grows fun same => protects.globals (Option.some.inj same)

/-- **Code runs away from the builtins**: it knows them, and it is not at home among them. -/
structure Away (s : Session) (f : Frame) (w : World) : Prop where
  setting : f.setting = s.setting
  home : f.localScope ≠ s.setting.builtins
  builtins : s.KeepsBuiltins w

theorem Away.elsewhere {f : Frame} (h : s.Away f w) :
    some f.localScope ≠ some s.setting.builtins := fun same => h.home (Option.some.inj same)

/-- A fresh scope is not that of the builtins. -/
theorem KeepsBuiltins.fresh (h : s.KeepsBuiltins w) :
    (⟨w.store.scopes.size⟩ : ScopeId) ≠ s.setting.builtins := by
  intro same
  have known := h.known
  rw [← same] at known
  exact Nat.lt_irrefl _ known

/-- **At every moment** code runs away from the builtins. -/
theorem Moment.away {f : Frame} (h : s.Moment f w) (protects : s.Protects) : s.Away f w := by
  induction h with
  | @unit t before source ports =>
    obtain ⟨setting, globals⟩ := before.settled
    refine ⟨setting, ?_, ?_⟩
    · show t.globals ≠ _
      rw [globals]
      exact protects.globals
    · exact (before.keepsBuiltins protects).grows (grows_entered none t) nofun
  | later _ run ih =>
    exact ⟨ih.setting, ih.home, ih.builtins.grows run.grows ih.elsewhere⟩
  | part _ _ _ ih => exact ⟨ih.setting, ih.home, ih.builtins⟩
  | @call f w _ c mode ih =>
    exact ⟨ih.setting, ih.builtins.fresh, ih.builtins.grows (.newScope none w []) nofun⟩
  | @load f w path source op _ _ ih =>
    exact ⟨ih.setting, ih.builtins.fresh, ih.builtins.grows (.startModule none w path op) nofun⟩

/-- **Builtins cannot be changed.**  Between units, and at every moment within them, no matter what code ran
and how it ended, the builtins have the names that they had when the session started, for the same
cells, which hold the same values.  And when a module is loaded, then either none of its code runs, or the code
starts where every plain name of a builtin means that builtin. -/
theorem builtins_unchanged (library : Library) (environment : Environment) (files : FileTree)
    (processId : String) :
    let s := Session.start library environment files processId
    (∀ t, s.Later t → s.KeepsBuiltins t.world) ∧
      ∀ f w, s.Moment f w → s.KeepsBuiltins w ∧
        ∀ path, w.HasNoEntry path →
          (∃ stop w', ∀ r : Runner,
            r.load f path ⟨w.store.scopes.size⟩ (w.beginLoad path) = (.error stop, w')) ∨
          ∃ source op,
            let inside := f.startModule w source path
            let started := w.startModule path op
            (∀ r : Runner, r.load f path ⟨w.store.scopes.size⟩ (w.beginLoad path) =
              (r.operation op inside).enclosed (inside.site op.span) started) ∧
            s.KeepsBuiltins started ∧
            ∀ name c, s.world.store.find? s.setting.builtins name = some c →
              inside.find? started.store "" name = some (.cell c) := by
  intro s
  have protects : s.Protects := protects_start library environment files processId
  refine ⟨fun t later => later.keepsBuiltins protects, fun f w moment => ?_⟩
  have away := moment.away protects
  refine ⟨away.builtins, fun path new => ?_⟩
  obtain ends | ⟨source, op, starts⟩ := Runner.load_starts f new
  · exact .inl ends
  · right
    have inside := (moment.load starts).away protects
    refine ⟨source, op, Runner.load_run starts, inside.builtins, fun name c found => ?_⟩
    have known : f.setting.builtins.index < w.store.scopes.size := by
      rw [away.setting]
      exact away.builtins.known
    have same : w.store.find? f.setting.builtins name = some c := by
      rw [away.setting, Store.find?, away.builtins.scope]
      exact found
    show ((f.startModule w source path).findPlain? _ name).map Place.cell = _
    rw [Frame.findPlain?_startModule known, same]
    rfl

/-- A unit binds the name `put~` and tries to assign to `true`.  After it `put~` is another variable for a
unit, and still the builtin for a module that the unit loads. -/
theorem builtins_unchanged_when_shadowed :
    let s := Session.start ⟨none, [("m", "put a")]⟩ ⟨[]⟩ default "1"
    let t := s.after "fn put \x7b \x7d; true = a"
    let f := t.frame (.interactive "use m") .standard ⟨t.world.store.scopes.size⟩
    f.findPlain? t.entered.store "put~" ≠ s.world.store.find? s.setting.builtins "put~" ∧
      s.KeepsBuiltins t.entered ∧
      ∃ source op, (f.startModule t.entered source "m").find? (t.entered.startModule "m" op).store ""
        "put~" = (s.world.store.find? s.setting.builtins "put~").map Place.cell := by
  intro s t f
  have later : s.Later t := .unit .now 60 (.interactive "fn put \x7b \x7d; true = a") .standard
  have moment : s.Moment f t.entered := .unit later (.interactive "use m") .standard
  obtain ⟨keeps, loads⟩ := (builtins_unchanged ⟨none, [("m", "put a")]⟩ ⟨[]⟩ default "1").2 f
    t.entered moment
  have shadowed : f.findPlain? t.entered.store "put~" = some ⟨28⟩ := by decide +kernel
  have builtin : s.world.store.find? s.setting.builtins "put~" = some ⟨21⟩ := by decide +kernel
  have new : t.entered.HasNoEntry "m" := by
    have absent : (Table.find? t.entered.modules "m").isNone = true := by decide +kernel
    exact Option.isNone_iff_eq_none.mp absent
  refine ⟨by rw [shadowed, builtin]; decide, keeps, ?_⟩
  obtain ⟨stop, w', ends⟩ | ⟨source, op, -, -, resolves⟩ := loads "m" new
  -- the code of the module does run: a runner for which all operations succeed ends the load well
  · let r : Runner := ⟨fun _ _ => pure (), fun _ _ => pure [], fun _ _ _ _ => pure (), fun _ => pure ()⟩
    have runs : (r.load f "m" ⟨t.entered.store.scopes.size⟩ (t.entered.beginLoad "m")).1.isOk = true := by
      decide +kernel
    rw [ends r] at runs
    exact nomatch runs
  · exact ⟨source, op, by rw [resolves "put~" ⟨21⟩ builtin, builtin]; rfl⟩

end Session

end ValueShell
