/-
  The states of a session, whatever code it runs.

  `Reached` follows a session of orderly units.  Here nothing is asked of the code.  `Later` are the states
  between units, and `Moment` the states in the middle of one: the frame that code runs in, and the world
  it finds there.  Between two moments in one frame anything happens that code at home in that frame can
  do (`Evolves`); calls and loads of modules lead to other frames.

  A module starts to run in the middle of a unit, too, and how it starts does not depend on who runs it.
  Either its load ends before any code of the module runs, or the code runs in a frame and a world that
  are known exactly (`Runner.load_starts`).

  Calls and loads begin with a local scope of their own, and only code at home in it changes it.  So it is there
  and in order at every moment (`Session.Moment.inOrder`).
-/
import ValueShell.Proofs.ModuleCache
import ValueShell.Proofs.SessionSafety

namespace ValueShell

open Eval

/-! ## The start of a module -/

namespace World

/-- The world in which the code of a module starts.  Its load has begun, there is a scope without names for
what is above the module, and the start is written down. -/
def startModule (w : World) (path : String) (op : Operation) : World :=
  { w.beginLoad path with store := ((w.beginLoad path).store.newScope []).2 }.note (.running path op)

/-- A load that begins makes a scope. -/
theorem lt_size_beginLoad (w : World) (path : String) :
    w.store.scopes.size < (w.beginLoad path).store.scopes.size := by
  show _ < (w.store.newScope []).2.scopes.size
  rw [Store.size_newScope]
  exact Nat.lt_succ_self _

end World

namespace Frame

/-- The frame in which it starts. -/
def startModule (f : Frame) (w : World) (source : Source) (path : String) : Frame :=
  f.ofModule source path ⟨w.store.scopes.size⟩ ⟨(w.beginLoad path).store.scopes.size⟩

/-- **An import starts the code of a module**: nothing is known of the module, its source is found, and `op`
is what it compiles to. -/
structure Starts (f : Frame) (w : World) (path : String) (source : Source) (op : Operation) :
    Prop where
  new : w.HasNoEntry path
  found : f.setting.library.findSource w.files path = .ok source
  compiled : ∃ chunk, readChunk source.code = .ok chunk ∧
    compileUnit ((w.beginLoad path).store.names f.setting.builtins) [] chunk = .ok op

end Frame

namespace Runner

variable {f : Frame} {w : World} {path : String} {source : Source}

/-- The load of a module whose source is found goes on with compiling it, and looks at the names of the
builtins alone. -/
theorem load_found (found : f.setting.library.findSource w.files path = .ok source) (r : Runner) :
    r.load f path ⟨w.store.scopes.size⟩ (w.beginLoad path) =
      (compileModule ((w.beginLoad path).store.names f.setting.builtins) source >>=
        r.runModule f source path ⟨w.store.scopes.size⟩) (w.beginLoad path) := by
  have same : f.setting.library.findSource (w.beginLoad path).files path = .ok source := found
  rw [load, get_bind_run, same, ofExcept_ok, pure_bind]

/-- What a module compiles to is what its code was read as. -/
theorem compileModule_ok {builtins : List String} {w' : World} {op : Operation}
    (h : compileModule builtins source w = (.ok op, w')) :
    ∃ chunk, readChunk source.code = .ok chunk ∧ compileUnit builtins [] chunk = .ok op := by
  rw [compileModule] at h
  cases hread : readChunk source.code with
  | error e =>
    rw [hread] at h
    cases e <;> exact nomatch h
  | ok chunk =>
    cases hcompile : compileUnit builtins [] chunk with
    | error e =>
      simp only [hread, hcompile] at h
      exact nomatch h
    | ok made =>
      simp only [hread, hcompile] at h
      cases h
      exact ⟨chunk, rfl, hcompile⟩

/-- **A module that starts** runs in a frame of its own, whoever runs it. -/
theorem load_run {op : Operation} (starts : f.Starts w path source op) (r : Runner) :
    r.load f path ⟨w.store.scopes.size⟩ (w.beginLoad path) =
      (r.operation op (f.startModule w source path)).enclosed
        ((f.startModule w source path).site op.span) (w.startModule path op) := by
  obtain ⟨chunk, hread, hcompile⟩ := starts.compiled
  have compiles : compileModule ((w.beginLoad path).store.names f.setting.builtins) source =
      pure op := by
    simp only [compileModule, hread, hcompile]
  rw [load_found starts.found, compiles, pure_bind]
  rfl

/-- **How a load starts.**  It ends before any code of the module runs, and then in the same way whoever
runs it; or it starts the module. -/
theorem load_starts (f : Frame) (new : w.HasNoEntry path) :
    (∃ stop w', ∀ r : Runner,
      r.load f path ⟨w.store.scopes.size⟩ (w.beginLoad path) = (.error stop, w')) ∨
      ∃ source op, f.Starts w path source op := by
  cases hfound : f.setting.library.findSource w.files path with
  | error e =>
    refine .inl ⟨.unwind (.ofFault e), (w.beginLoad path).note (.raised e), fun r => ?_⟩
    have same : f.setting.library.findSource (w.beginLoad path).files path = .error e := hfound
    rw [load, get_bind_run, same]
    rfl
  | ok source =>
    rcases hcompile : compileModule ((w.beginLoad path).store.names f.setting.builtins) source
      (w.beginLoad path) with ⟨stop | op, w'⟩
    · refine .inl ⟨stop, w', fun r => ?_⟩
      rw [load_found hfound, bind_run, hcompile]
    · exact .inr ⟨source, op, new, hfound, compileModule_ok hcompile⟩

end Runner

namespace Session

/-! ## The states between units -/

/-- **The later states of a session**: any units are evaluated, with any result, the host binds global
variables, feeds the streams, and changes the environment and the files. -/
inductive Later (s : Session) : Session → Prop
  | now : Later s s
  | unit {t : Session} (before : Later s t) (fuel : Nat) (source : Source) (ports : Ports) :
      Later s (t.evaluate fuel source ports).2
  | global {t : Session} (before : Later s t) (name : String) (v : Value) :
      Later s (t.bindGlobal name v)
  | host {t : Session} (before : Later s t) (streams : Streams) (environment : Environment)
      (files : FileTree) : Later s (t.mapWorld fun w => { w with streams, environment, files })

variable {s t : Session}

/-- What is settled for a session stays settled. -/
theorem Later.settled (h : s.Later t) : t.setting = s.setting ∧ t.globals = s.globals := by
  induction h with
  | now => exact ⟨rfl, rfl⟩
  | @unit t _ fuel source ports ih =>
    obtain heq | ⟨e, w, -, heq⟩ := evaluate_state t fuel source ports
    · rw [heq]
      exact ih
    · rw [heq]
      exact ih
  | global _ _ _ ih => exact ih
  | host _ _ _ _ ih => exact ih

/-- A global variable of the host changes the globals alone. -/
theorem grows_bindGlobal (s : Session) (name : String) (v : Value) :
    Grows (some s.globals) s.world (s.bindGlobal name v).world :=
  (Grows.newCell _ s.world (.plain v)).trans (.bind rfl _ name _)

/-- **A session only grows**, but for its globals. -/
theorem Later.grows (h : s.Later t) : Grows (some s.globals) s.world t.world := by
  induction h with
  | now => exact .refl _ _
  | @unit t before fuel source ports ih =>
    have step := grows_evaluate t fuel source ports
    rw [before.settled.2] at step
    exact ih.trans step
  | @global t before name v ih =>
    have step := grows_bindGlobal t name v
    rw [before.settled.2] at step
    exact ih.trans step
  | host _ _ _ _ ih => exact ih.trans (.ofStore rfl ⟨[], rfl⟩)

/-! ## The states in the middle of a unit -/

/-- **The moments of a session**: a frame, and a world in which code runs in that frame. -/
inductive Moment (s : Session) : Frame → World → Prop
  /-- a unit starts -/
  | unit {t : Session} (before : s.Later t) (source : Source) (ports : Ports) :
      Moment s (t.frame source ports ⟨t.world.store.scopes.size⟩) t.entered
  /-- code has run in the frame, and more of it runs now -/
  | later {f : Frame} {w w' : World} (before : Moment s f w)
      (run : Evolves .settled (some f.localScope) f.loading w w') : Moment s f w'
  /-- a part of a special form, a stage of a pipeline, or a capture -/
  | part {f : Frame} {w : World} (before : Moment s f w) (label : String) (ports : Ports) :
      Moment s ((f.labelled label).withPorts ports) w
  /-- a call begins, with a fresh local scope -/
  | call {f : Frame} {w : World} (before : Moment s f w) (c : Closure) (mode : CallMode) :
      Moment s (f.inside c mode ⟨w.store.scopes.size⟩)
        { w with store := (w.store.newScope []).2 }
  /-- the code of a module starts -/
  | load {f : Frame} {w : World} {path : String} {source : Source} {op : Operation}
      (before : Moment s f w) (starts : f.Starts w path source op) :
      Moment s (f.startModule w source path) (w.startModule path op)

end Session

/-! ## Local scopes -/

/-- **The scope is in order**: it is there, and so are its names, in ascending order. -/
structure Store.InOrder (s : Store) (scope : ScopeId) : Prop where
  known : scope.index < s.scopes.size
  sorted : (s.scope scope).Sorted

theorem Store.inOrder_fresh (s : Store) : (s.newScope []).2.InOrder ⟨s.scopes.size⟩ where
  known := by
    rw [Store.size_newScope]
    exact Nat.lt_succ_self _
  sorted := by
    rw [Store.scope_newScope_self]
    exact List.Pairwise.nil

theorem Store.InOrder.newScope {s : Store} {scope : ScopeId} (h : s.InOrder scope) (entries : Table CellId) :
    (s.newScope entries).2.InOrder scope where
  known := by
    rw [Store.size_newScope]
    exact Nat.lt_succ_of_lt h.known
  sorted := by
    rw [Store.scope_newScope_of_lt _ _ h.known]
    exact h.sorted

theorem Store.InOrder.bind {s : Store} {scope : ScopeId} (h : s.InOrder scope) (name : String) (c : CellId) :
    (s.bind scope name c).InOrder scope where
  known := Nat.lt_of_lt_of_eq h.known Array.size_modify.symm
  sorted := by
    rw [Store.scope_bind_self _ _ _ h.known]
    exact h.sorted.insert name c

theorem Store.InOrder.unbind {s : Store} {scope : ScopeId} (h : s.InOrder scope) (name : String) :
    (s.unbind scope name).InOrder scope where
  known := Nat.lt_of_lt_of_eq h.known Array.size_modify.symm
  sorted := by
    rw [Store.scope_unbind_self _ _ h.known]
    exact h.sorted.filter _

/-- A scope that is not the one where code is at home stays in order. -/
theorem Store.InOrder.away {scope : ScopeId} {home : Option ScopeId} {w w' : World}
    (h : w.store.InOrder scope) (grows : Grows home w w') (away : home ≠ some scope) : w'.store.InOrder scope where
  known := Nat.lt_of_lt_of_le h.known grows.scopes
  sorted := by
    rw [grows.kept scope h.known away]
    exact h.sorted

/-- One change leaves the scope where the code is at home in order. -/
theorem Change.inOrder {scope : ScopeId} {loading : List String} {w w' : World}
    (change : Change (some scope) loading w w') (h : w.store.InOrder scope) : w'.store.InOrder scope := by
  cases change with
  | surroundings | raise | enter | imports | newCell | newIdentity | assign => exact ⟨h.known, h.sorted⟩
  | newScope entries => exact h.newScope entries
  | bind home name =>
    cases home
    exact h.bind name _
  | unbind home name =>
    cases home
    exact h.unbind name

/-- A scope that is only being made is another one. -/
theorem Store.InOrder.ne_fresh {s : Store} {scope : ScopeId} (h : s.InOrder scope) :
    some (⟨s.scopes.size⟩ : ScopeId) ≠ some scope := fun same => by
  cases same
  exact Nat.lt_irrefl _ h.known

/-- **So does a whole run.**  Calls and loads are at home in scopes of their own. -/
theorem Evolves.inOrder {e : Ending} {scope : ScopeId} {loading : List String} {w w' : World}
    (run : Evolves e (some scope) loading w w') (h : w.store.InOrder scope) : w'.store.InOrder scope := by
  generalize home : some scope = own at run
  induction run with
  | refl | cut | stuck => exact h
  | change change =>
    subst home
    exact change.inOrder h
  | trans _ _ first later => exact later (first h home) home
  | inside run => exact (h.newScope []).away run.grows h.ne_fresh
  | @loaded _ _ v v' path _ run | @failed _ _ v v' path _ run | @unsettled _ _ _ v v' path _ _ run =>
    have begun : (v.beginLoad path).store.InOrder scope := h.newScope []
    have ran : v'.store.InOrder scope := begun.away run.grows h.ne_fresh
    exact ran

namespace Session

variable {library : Library} {environment : Environment} {files : FileTree} {processId : String} {s t : Session}

theorem inOrder_start : (start library environment files processId).world.store.InOrder
    (start library environment files processId).globals := by
  obtain ⟨s₀, -, here⟩ := start_eq library environment files processId
  rw [here]
  exact s₀.inOrder_fresh

theorem Later.inOrder (later : s.Later t) (h : s.world.store.InOrder s.globals) :
    t.world.store.InOrder t.globals := by
  induction later with
  | now => exact h
  | @unit t _ fuel source ports ih =>
    obtain same | ⟨e, w, evolves, same⟩ := evaluate_state t fuel source ports
    · rw [same]
      exact ih
    · rw [same]
      exact evolves.inOrder (ih.newScope [])
  | @global t _ name v ih =>
    have made : (t.world.store.newCell (.plain v)).2.InOrder t.globals := ⟨ih.known, ih.sorted⟩
    exact made.bind name _
  | host _ _ _ _ ih => exact ih

/-- **In every moment of a session, the local scope is in order.** -/
theorem Moment.inOrder {f : Frame} {w : World} (moment : (start library environment files processId).Moment f w) :
    w.store.InOrder f.localScope := by
  induction moment with
  | unit before => exact (before.inOrder inOrder_start).newScope []
  | later _ run ih => exact run.inOrder ih
  | part _ _ _ ih => exact ih
  | call => exact Store.inOrder_fresh _
  | load => exact (Store.inOrder_fresh _).newScope []

end Session

end ValueShell
