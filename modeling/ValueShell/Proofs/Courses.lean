/-
  The course of a session.

  `Session.Moment` says in which frames and worlds the code of a session runs, but not what comes after what.  For that
  an `Instant` has, besides the world, all the frames that are not done: the code in the innermost one runs, and the
  code in the others waits for it.  A session `Proceeds` from one instant to the next as it starts and ends units,
  calls and loads, and as code runs in the innermost frame and does whatever code at home there can do (`Evolves`).

  `EnclosedCourses` shows that whatever runs inside of a unit is on such a course.

  What every step preserves holds along every course.  Two such things are of use.  A scope that is in order stays so.
  And a scope that nobody is at home in, neither the code of any frame that is not done nor that of later units, keeps
  its entries (`Instant.Idle`).  Nobody ever comes to be at home in such a scope, because calls and loads are at home in
  scopes made for them.  The builtins are in a scope of this kind, and so is what a closure captures.
-/
import Mathlib.Logic.Relation
import ValueShell.Proofs.FixedBindings
import ValueShell.Proofs.WholeStores

namespace ValueShell

open Eval
open Relation (ReflTransGen)

/-! ## Instants -/

/-- **An instant of a session**: the frames that are not done, the innermost one first, and the world. -/
structure Instant where
  frames : List Frame
  world : World

namespace Session

/-- **What happens next** in a session. -/
inductive Proceeds (s : Session) : Instant → Instant → Prop
  /-- a unit starts -/
  | unit (w : World) (source : Source) (ports : Ports) :
      Proceeds s ⟨[], w⟩
        ⟨[s.frame source ports ⟨w.store.scopes.size⟩], { w with store := (w.store.newScope []).2 }⟩
  /-- code runs, to any end -/
  | code {f : Frame} {w w' : World} {e : Ending} (fs : List Frame)
      (run : Evolves e (some f.localScope) f.loading w w') : Proceeds s ⟨f :: fs, w⟩ ⟨f :: fs, w'⟩
  /-- a part of a special form, a stage of a pipeline, or a capture -/
  | part (f : Frame) (fs : List Frame) (w : World) (label : String) (ports : Ports) :
      Proceeds s ⟨f :: fs, w⟩ ⟨(f.labelled label).withPorts ports :: f :: fs, w⟩
  /-- a call begins, with a fresh local scope -/
  | call (f : Frame) (fs : List Frame) (w : World) (c : Closure) (mode : CallMode) :
      Proceeds s ⟨f :: fs, w⟩
        ⟨f.inside c mode ⟨w.store.scopes.size⟩ :: f :: fs, { w with store := (w.store.newScope []).2 }⟩
  /-- the code of a module starts -/
  | load {f : Frame} {w : World} {path : String} {source : Source} {op : Operation} (fs : List Frame)
      (starts : f.Starts w path source op) :
      Proceeds s ⟨f :: fs, w⟩ ⟨f.startModule w source path :: f :: fs, w.startModule path op⟩
  /-- the code of a frame is done, and what becomes of a load is written down -/
  | done (f : Frame) (fs : List Frame) (w : World) (modules : ModuleCache) (journal : List Event) :
      Proceeds s ⟨f :: fs, w⟩ ⟨fs, { w with modules, journal }⟩
  /-- the host binds a global variable -/
  | global (w : World) (name : String) (v : Value) :
      Proceeds s ⟨[], w⟩ ⟨[], { w with store := w.store.bindNew s.globals name (.plain v) }⟩
  /-- the host feeds the streams, and changes the environment and the files -/
  | host (w : World) (streams : Streams) (environment : Environment) (files : FileTree) :
      Proceeds s ⟨[], w⟩ ⟨[], { w with streams, environment, files }⟩

/-- **A course of a session** leads from one instant to another. -/
abbrev Course (s : Session) : Instant → Instant → Prop := ReflTransGen s.Proceeds

variable {s t : Session} {i j : Instant}

/-- The code of a frame is done, and nothing is written down. -/
theorem Proceeds.leave (f : Frame) (fs : List Frame) (w : World) : s.Proceeds ⟨f :: fs, w⟩ ⟨fs, w⟩ :=
  .done f fs w w.modules w.journal

/-- A call begins, and its arguments are bound. -/
theorem course_call {f : Frame} {w w' : World} {l : Lambda} {args : List Value} (c : Closure) (mode : CallMode)
    (fs : List Frame) (bound : bindArguments ⟨w.store.scopes.size⟩ l args
      { w with store := (w.store.newScope []).2 } = (.ok (), w')) :
    s.Course ⟨f :: fs, w⟩ ⟨f.inside c mode ⟨w.store.scopes.size⟩ :: f :: fs, w'⟩ := by
  have binds : Stays (some ⟨w.store.scopes.size⟩) f.loading (bindArguments ⟨w.store.scopes.size⟩ l args) :=
    Runner.stays_bindArguments rfl l args
  have run := binds { w with store := (w.store.newScope []).2 }
  rw [bound] at run
  exact .tail (.single (.call f fs w c mode)) (.code (f :: fs) run)

/-! ## States and moments -/

/-- A unit is run and done. -/
theorem Course.evaluate {w : World} (course : s.Course i ⟨[], w⟩) (fuel : Nat) (source : Source) (ports : Ports) :
    s.Course i ⟨[], (Session.evaluate { s with world := w } fuel source ports).2.world⟩ := by
  obtain same | ⟨e, w', evolves, same⟩ := evaluate_state { s with world := w } fuel source ports
  · rw [same]
    exact course
  · rw [same]
    exact ((course.tail (.unit w source ports)).tail (.code [] evolves)).tail (.leave _ [] w')

/-- **A course leads to every later state of a session.** -/
theorem Later.course (later : s.Later t) : s.Course ⟨[], s.world⟩ ⟨[], t.world⟩ := by
  induction later with
  | now => exact .refl
  | @unit t before fuel source ports ih =>
    obtain ⟨world, setting, globals⟩ := t
    obtain ⟨rfl, rfl⟩ : setting = s.setting ∧ globals = s.globals := before.settled
    exact Course.evaluate ih fuel source ports
  | @global t before name v ih =>
    have step := Proceeds.global (s := s) t.world name v
    rw [← before.settled.2] at step
    exact ih.tail step
  | host _ streams environment files ih => exact ih.tail (.host _ streams environment files)

/-- And on into a unit that starts there. -/
theorem Later.course_unit (later : s.Later t) (source : Source) (ports : Ports) :
    s.Course ⟨[], s.world⟩ ⟨[t.frame source ports ⟨t.world.store.scopes.size⟩], t.entered⟩ := by
  have step := Proceeds.unit (s := s) t.world source ports
  obtain ⟨setting, globals⟩ := later.settled
  have same (scope : ScopeId) : s.frame source ports scope = t.frame source ports scope := by
    rw [frame, frame, setting, globals]
  rw [same] at step
  exact later.course.tail step

end Session

/-! ## What every step preserves -/

/-- A scope that is in order stays in order, whoever runs. -/
theorem Store.InOrder.evolves {e : Ending} {home scope : ScopeId} {loading : List String} {w w' : World}
    (h : w.store.InOrder scope) (run : Evolves e (some home) loading w w') : w'.store.InOrder scope := by
  by_cases same : home = scope
  · subst same
    exact run.inOrder h
  · exact h.away run.grows fun eq => same (Option.some.inj eq)

namespace Instant

/-- **Nobody is at home in the scope**, which is there and has these entries: neither code that is not done, nor the
units to come. -/
structure Idle (s : Session) (scope : ScopeId) (entries : Table CellId) (i : Instant) : Prop where
  known : scope.index < i.world.store.scopes.size
  entries : i.world.store.scope scope = entries
  globals : s.globals ≠ scope
  frames : ∀ f ∈ i.frames, f.localScope ≠ scope

/-- **Frames as they are in a session**: of its setting, with a local scope that is in order; and so are the
globals. -/
structure Proper (s : Session) (i : Instant) : Prop where
  globals : i.world.store.InOrder s.globals
  setting : ∀ f ∈ i.frames, f.setting = s.setting
  frames : ∀ f ∈ i.frames, i.world.store.InOrder f.localScope

variable {s : Session} {i : Instant} {scope : ScopeId} {entries : Table CellId} {f g : Frame} {fs : List Frame}
  {w w' : World}

/-- What grows elsewhere leaves a scope idle. -/
theorem Idle.grows (h : Idle s scope entries ⟨fs, w⟩) {home : Option ScopeId} (grows : Grows home w w')
    (away : home ≠ some scope) : Idle s scope entries ⟨fs, w'⟩ where
  known := Nat.lt_of_lt_of_le h.known grows.scopes
  entries := (grows.kept scope h.known away).trans h.entries
  globals := h.globals
  frames := h.frames

/-- So does a frame that is at home elsewhere. -/
theorem Idle.push (h : Idle s scope entries ⟨fs, w⟩) (away : f.localScope ≠ scope) :
    Idle s scope entries ⟨f :: fs, w⟩ where
  known := h.known
  entries := h.entries
  globals := h.globals
  frames := List.forall_mem_cons.mpr ⟨away, h.frames⟩

theorem Idle.pop (h : Idle s scope entries ⟨f :: fs, w⟩) : Idle s scope entries ⟨fs, w⟩ where
  known := h.known
  entries := h.entries
  globals := h.globals
  frames := (List.forall_mem_cons.mp h.frames).2

/-- A scope that is only being made is not idle yet. -/
theorem Idle.ne_fresh (h : Idle s scope entries ⟨fs, w⟩) : (⟨w.store.scopes.size⟩ : ScopeId) ≠ scope := by
  rintro rfl
  exact Nat.lt_irrefl _ h.known

/-- **No step disturbs a scope that nobody is at home in.** -/
theorem Idle.step {j : Instant} (h : Idle s scope entries i) (step : s.Proceeds i j) : Idle s scope entries j := by
  have elsewhere {home : ScopeId} (away : home ≠ scope) : some home ≠ some scope :=
    fun same => away (Option.some.inj same)
  cases step with
  | unit w => exact (h.grows (.newScope none w []) (Option.some_ne_none scope).symm).push h.globals
  | @code f w w' e fs run => exact h.grows run.grows (elsewhere (h.frames f List.mem_cons_self))
  | part f => exact h.push (h.frames f List.mem_cons_self)
  | call f fs w => exact (h.grows (.newScope none w []) (Option.some_ne_none scope).symm).push h.ne_fresh
  | @load f w path source op fs => exact (h.grows (.startModule none w path op) (Option.some_ne_none scope).symm).push h.ne_fresh
  | done f fs w => exact ⟨h.known, h.entries, h.globals, h.pop.frames⟩
  | global w name v =>
    have grows : Grows (some s.globals) w { w with store := w.store.bindNew s.globals name (.plain v) } :=
      (Grows.newCell _ w (.plain v)).trans (.bind rfl _ name _)
    exact h.grows grows (elsewhere h.globals)
  | host w => exact ⟨h.known, h.entries, h.globals, h.frames⟩

/-- What leaves scopes in order leaves an instant proper. -/
theorem Proper.keep (h : Proper s ⟨fs, w⟩) (keeps : ∀ scope, w.store.InOrder scope → w'.store.InOrder scope) :
    Proper s ⟨fs, w'⟩ :=
  ⟨keeps _ h.globals, h.setting, fun f mem => keeps _ (h.frames f mem)⟩

theorem Proper.push (h : Proper s ⟨fs, w⟩) (setting : f.setting = s.setting) (ordered : w.store.InOrder f.localScope) :
    Proper s ⟨f :: fs, w⟩ :=
  ⟨h.globals, List.forall_mem_cons.mpr ⟨setting, h.setting⟩, List.forall_mem_cons.mpr ⟨ordered, h.frames⟩⟩

theorem Proper.pop (h : Proper s ⟨f :: fs, w⟩) : Proper s ⟨fs, w⟩ :=
  ⟨h.globals, (List.forall_mem_cons.mp h.setting).2, (List.forall_mem_cons.mp h.frames).2⟩

/-- **Every step leaves an instant proper.** -/
theorem Proper.step {j : Instant} (h : Proper s i) (step : s.Proceeds i j) : Proper s j := by
  cases step with
  | unit w => exact (h.keep fun _ ordered => ordered.newScope []).push rfl (h.globals.newScope [])
  | code fs run => exact h.keep fun _ ordered => ordered.evolves run
  | part f => exact h.push (h.setting f List.mem_cons_self) (h.frames f List.mem_cons_self)
  | call f fs w =>
    exact (h.keep fun _ ordered => ordered.newScope []).push (h.setting f List.mem_cons_self) (Store.inOrder_fresh _)
  | @load f w path source op fs =>
    refine Proper.push (w := w.startModule path op) (h.keep fun _ ordered => ?_) (h.setting f List.mem_cons_self) ?_
    · exact (ordered.newScope []).newScope []
    · exact (Store.inOrder_fresh w.store).newScope []
  | done => exact ⟨h.globals, h.pop.setting, h.pop.frames⟩
  | global w name v =>
    refine h.keep fun scope ordered => ?_
    have made : (w.store.newCell (.plain v)).2.InOrder scope := ⟨ordered.known, ordered.sorted⟩
    by_cases same : s.globals = scope
    · subst same
      exact made.bind name _
    · exact Store.InOrder.away (w := { w with store := (w.store.newCell (.plain v)).2 }) made
        (Grows.bind rfl _ name _) fun eq => same (Option.some.inj eq)
  | host => exact ⟨h.globals, h.setting, h.frames⟩

end Instant

namespace Session

variable {s : Session} {i j : Instant} {scope : ScopeId} {entries : Table CellId}

/-- **Nobody ever comes to be at home in an idle scope**, and it keeps its entries; by induction on the course. -/
theorem Course.idle (course : s.Course i j) (h : i.Idle s scope entries) : j.Idle s scope entries := by
  induction course with
  | refl => exact h
  | tail _ step ih => exact ih.step step

theorem Course.proper (course : s.Course i j) (h : i.Proper s) : j.Proper s := by
  induction course with
  | refl => exact h
  | tail _ step ih => exact ih.step step

/-- No name comes to be bound to a variable that there is not. -/
theorem Proceeds.whole (step : s.Proceeds i j) (h : i.world.store.Whole) : j.world.store.Whole := by
  cases step with
  | unit | call => exact h.fresh
  | code _ run => exact run.whole h
  | load => exact h.fresh.fresh
  | global _ name v => exact h.bindNew _ _ _
  | part | done | host => exact h

theorem Course.whole (course : s.Course i j) (h : i.world.store.Whole) : j.world.store.Whole := by
  induction course with
  | refl => exact h
  | tail _ step ih => exact step.whole ih

/-- The builtins are in an idle scope. -/
theorem Protects.idle (protects : s.Protects) :
    (⟨[], s.world⟩ : Instant).Idle s s.setting.builtins (s.world.store.scope s.setting.builtins) :=
  ⟨protects.builtins.known, rfl, protects.globals, nofun⟩

end Session

end ValueShell
