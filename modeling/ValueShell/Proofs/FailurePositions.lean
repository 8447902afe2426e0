/-
  Where failures are positioned.

  A failure gets its place from the operation or the expression that it comes up in: a span of its code, and the
  source that its frame claims.  The two have to belong together, although a closure may be called from
  anywhere, from another unit or a module, and long after the unit that it was made in.

  So the invariant is about all frames and all closures.  Code belongs to the source that it was compiled from
  (`Source.Has`); every evaluation runs code that belongs to the source of its frame, and all closures that a
  session holds belong to theirs (`Supplied.carries`).  This is a provenance, hence every evaluation keeps to
  it; and the spans of compiled code are windows of its source.
-/
import ValueShell.Proofs.CompiledSpans
import ValueShell.Proofs.SelfLikeness
import ValueShell.Proofs.SessionSafety
import ValueShell.Proofs.SignalBoundaries

namespace ValueShell

open Eval Conduct

/-! ## Code and sources -/

theorem Code.Inside.trans {c d e : Code} (h : c.Inside d) (h' : d.Inside e) : c.Inside e := by
  induction h' with
  | self => exact h
  | child hd _ ih => exact .child hd ih

/-- **The code belongs to the source**: it is in what the source compiles to, in a session with some names. -/
def Source.Has (source : Source) (c : Code) : Prop :=
  ∃ builtins globals chunk op, readChunk source.code = .ok chunk ∧ compileUnit builtins globals chunk = .ok op ∧
    c.Inside (.operation op)

/-- The closure was compiled from its source. -/
def Closure.Compiled (c : Closure) : Prop := c.source.Has (.lambda c.lambda)

/-- Every mark in the code of a source is a window of it. -/
theorem Source.Has.window {source : Source} {c d : Code} {span : Span} (h : source.Has c) (inside : d.Inside c)
    (marks : d.Marks span) : span.Window source.code.toList := by
  obtain ⟨builtins, globals, chunk, op, read, compiled, whole⟩ := h
  have placed := compileUnit_placed read builtins globals
  rw [compiled] at placed
  exact placed d (inside.trans whole) span marks

/-- Which code belongs to which source. -/
def Provenance.ofSources : Provenance where
  has := Source.Has
  child := by
    rintro source code part ⟨builtins, globals, chunk, op, read, compiled, whole⟩ hd
    exact ⟨builtins, globals, chunk, op, read, compiled, Code.Inside.trans (.child hd .self) whole⟩
  compiled := by
    rintro source op ⟨builtins, chunk, read, compiled⟩
    exact ⟨builtins, [], chunk, op, read, compiled, .self⟩

/-! ## Where an exception comes up -/

namespace Evaluation

/-- **The exception comes up here**: the evaluation ends with it, and nothing that it runs does. -/
structure Originates (e : Evaluation) (x : Exception) : Prop where
  ends : e.EndsWith (.exception x)
  first : ∀ inner, e.Runs inner → ¬inner.EndsWith (.exception x)

/-- **Who is blamed**: the code of the evaluation, in the source of its frame; or, where a signal left the code of a
module that is imported, all of that code. -/
inductive Blames (e : Evaluation) (site : Site) : Prop
  | code (source : site.source = e.task.frame.source) (marks : e.task.Marks site.span)
  | module {inner : Evaluation} {op : Operation} {f : Frame} {s : Signal} (imports : e.task.Imports)
      (runs : e.Runs inner) (whole : inner.task = .operation op f) (left : inner.EndsWith (.signal s))
      (same : site = f.site op.span)

variable {e outer inner : Evaluation} {x : Exception} {u : Unwind} {site : Site}

/-- What ends with something has fuel left. -/
theorem EndsWith.succ (ends : e.EndsWith u) : ∃ fuel t w, e = ⟨fuel + 1, t, w⟩ := by
  obtain ⟨_ | fuel, t, w⟩ := e
  · cases t <;> exact nomatch ends
  · exact ⟨fuel, t, w, rfl⟩

/-- An exception comes up somewhere below. -/
theorem EndsWith.originates (ends : e.EndsWith (.exception x)) :
    ∃ origin, e.Encloses origin ∧ origin.Originates x := by
  obtain ⟨fuel, t, w⟩ := e
  induction fuel generalizing t w with
  | zero =>
    obtain ⟨fuel, t', w', same⟩ := ends.succ
    exact nomatch same
  | succ fuel ih =>
    by_cases below : ∃ inner, Runs ⟨fuel + 1, t, w⟩ inner ∧ inner.EndsWith (.exception x)
    · obtain ⟨⟨fuel', t', w'⟩, runs, ends'⟩ := below
      obtain rfl : fuel = fuel' := Nat.succ.inj runs.1
      obtain ⟨origin, way, originates⟩ := ih t' w' ends'
      exact ⟨origin, .step runs trivial way, originates⟩
    · exact ⟨_, .here, ends, fun inner runs ends' => below ⟨inner, runs, ends'⟩⟩

/-- What is given a place keeps it. -/
theorem located_firm {α : Type} {rule : Eval α} {w : World} (h : (rule.located site w).1 = .error (.unwind u)) :
    u.Firm := by
  rw [located, mapStop_run] at h
  rcases run : rule w with ⟨(u₀ | _ | _ | _) | a, w'⟩ <;> rw [run] at h <;> cases h
  rcases u₀ with s | ⟨fault, _ | at'⟩ <;> exact fun _ => rfl

/-- What leaves an operation has a place. -/
theorem EndsWith.firm {op : Operation} {f : Frame} (ends : e.EndsWith u) (task : e.task = .operation op f) :
    u.Firm := by
  obtain ⟨fuel, t, w, rfl⟩ := ends.succ
  subst task
  obtain ⟨rule, whole⟩ : ∃ rule : Eval Unit,
      (Runner.ofFuel (fuel + 1)).operation op f = rule.located (f.site op.span) := ⟨_, rfl⟩
  rw [EndsWith, outcome, run_operation, whole] at ends
  have left : (rule.located (f.site op.span) w).1 = .error (.unwind u) := by
    rcases run : rule.located (f.site op.span) w with ⟨stop | a, w'⟩ <;> rw [run] at ends <;> cases ends
    rfl
  exact located_firm left

/-- **An exception is blamed on where it comes up.** -/
theorem Originates.blames {P : Provenance} {fault : Fault} (h : e.Originates ⟨fault, some site⟩)
    (keeps : e.Keeps P) : e.Blames site := by
  obtain ⟨fuel, t, w, rfl⟩ := h.ends.succ
  obtain own | ⟨inner, u₀, runs, ends, permits⟩ := blamed keeps h.ends
  · obtain ⟨source, marks⟩ := own _ site rfl rfl
    exact .code source marks
  · generalize whole : Unwind.exception ⟨fault, some site⟩ = u at permits
    cases permits with
    | same =>
      subst whole
      exact absurd ends (h.first inner runs)
    | placed bare place =>
      cases whole
      exact .code place.1 place.2
    | @escaped op f imports task =>
      have firm := ends.firm task
      cases u₀ with
      | signal s =>
        cases whole
        exact .module imports runs task ends rfl
      | exception x =>
        rw [Unwind.escaping_of_firm firm] at whole
        cases whole
        exact absurd ends (h.first inner runs)

/-- All code runs in frames of its source. -/
theorem Keeps.has (keeps : e.Keeps .ofSources) : ∀ code ∈ e.task.code?, e.task.frame.source.Has code := by
  obtain ⟨fuel, t, w⟩ := e
  intro code hcode
  cases t with
  | operation op f | expr x f =>
    cases hcode
    exact keeps.admitted
  | call => exact nomatch hcode

/-- Who is blamed is blamed inside the source. -/
theorem Blames.window (h : e.Blames site) (keeps : e.Keeps .ofSources) :
    site.span.Window site.source.code.toList := by
  cases h with
  | code source marks =>
    obtain ⟨whole, hwhole, c, inside, marks⟩ := marks
    rw [source]
    exact (keeps.has whole hwhole).window inside marks
  | @module inner op f signal imports runs whole left same =>
    have has : inner.task.frame.source.Has (.operation op) := (keeps.runs runs).has _ (by rw [whole]; rfl)
    rw [whole] at has
    rw [same]
    exact has.window .self .operation

end Evaluation

/-! ## Sessions -/

theorem Store.Carries.bindConstants {P : Closure → Prop} {s : Store} (h : s.Carries P) (scope : ScopeId)
    {bindings : List (String × Value)} (all : ∀ b ∈ bindings, b.2.Carries P) :
    (s.bindConstants scope bindings).Carries P := by
  induction bindings generalizing s with
  | nil => exact h
  | cons b bindings ih =>
    have first : (Cell.constant b.2).value.Carries P := all b List.mem_cons_self
    exact ih (h.bindNew first scope b.1) fun x hx => all x (List.mem_cons_of_mem _ hx)

/-- The exception that a unit ended with. -/
def UnitOutcome.exception? : UnitOutcome → Option Exception
  | .failed (.exception e) => some e
  | _ => none

theorem UnitOutcome.eq_of_exception? {outcome : UnitOutcome} {e : Exception} (h : outcome.exception? = some e) :
    outcome = .failed (.exception e) := by
  cases outcome with
  | failed problem =>
    cases problem <;> cases h
    rfl
  | _ => cases h

namespace Session

variable {s : Session} {fuel : Nat} {op : Operation} {source : Source} {ports : Ports}

/-- **The states of a session** that runs any code.  The closures that its host hands in, as global variables or in
the streams, were compiled from their sources. -/
inductive Supplied : Session → Prop
  | start {library : Library} {environment : Environment} {files : FileTree} {processId : String} :
      Supplied (.start library environment files processId)
  | unit {s : Session} (before : Supplied s) (fuel : Nat) (source : Source) (ports : Ports) :
      Supplied (s.evaluate fuel source ports).2
  | global {s : Session} (before : Supplied s) (name : String) {v : Value} (compiled : v.Carries Closure.Compiled) :
      Supplied (s.bindGlobal name v)
  | host {s : Session} (before : Supplied s) {streams : Streams} (environment : Environment) (files : FileTree)
      (compiled : streams.Carries Closure.Compiled) :
      Supplied (s.mapWorld fun w => { w with streams, environment, files })

theorem carries_start {P : Closure → Prop} {library : Library} {environment : Environment} {files : FileTree}
    {processId : String} : (Session.start library environment files processId).world.Carries P := by
  obtain ⟨store, bound, start⟩ := start_eq library environment files processId
  rw [start]
  refine ⟨?_, nofun⟩
  have empty : (Store.empty.newScope []).2.Carries P := fun c cell hc => nomatch hc
  have builtins := empty.bindConstants ⟨0⟩ fun b hb => Builtin.carries_bindings processId b hb P
  rw [← bound] at builtins
  exact builtins

/-- What does not compile was not read, or stopped the compiler. -/
theorem compile_error {failure : UnitError} (h : s.compile source = .error (some failure)) :
    (∃ e, failure = .parse source e) ∨ ∃ builtins globals chunk e, failure = .compile source e ∧
      readChunk source.code = .ok chunk ∧ compileUnit builtins globals chunk = .error e := by
  unfold compile at h
  split at h
  · exact nomatch h
  · next e read =>
    cases h
    exact .inl ⟨e, rfl⟩
  · next chunk read =>
    rcases made : compileUnit (s.world.store.names s.setting.builtins) (s.world.store.names s.globals) chunk with e | op
    all_goals
      rw [made] at h
      cases h
    exact .inr ⟨_, _, chunk, e, rfl, read, made⟩

/-- A unit runs in a world whose closures belong to their sources, and so does its code. -/
theorem keeps_evaluation (carries : s.world.Carries Closure.Compiled) (compiled : s.compile source = .ok op) :
    (s.evaluation fuel op source ports).Keeps .ofSources := by
  obtain ⟨chunk, read, made⟩ := compile_ok compiled
  exact ⟨⟨_, _, chunk, op, read, made, .self⟩, carries.cells, carries.queues⟩

theorem evaluate_world (compiled : s.compile source = .ok op) :
    (s.evaluate fuel source ports).2.world = (s.evaluation fuel op source ports).outcome.2 := by
  rw [evaluate_run, compiled, Evaluation.outcome, evaluation, run_operation]
  simp only [execute, executeBy]
  rcases (Runner.ofFuel fuel).operation op (s.frame source ports (s.world.store.newScope []).1) _ with
    ⟨(_ | _ | _ | _) | _, _⟩ <;> rfl

/-- **All closures that a session holds** were compiled from their sources. -/
theorem Supplied.carries (h : s.Supplied) : s.world.Carries Closure.Compiled := by
  induction h with
  | start => exact carries_start
  | @unit s _ fuel source ports ih =>
    cases compiled : s.compile source with
    | ok op =>
      have keeps : (s.evaluation fuel op source ports).Keeps .ofSources := keeps_evaluation ih compiled
      rw [evaluate_world compiled]
      exact ((Provenance.lawful_ofFuel fuel).keeps _ _ keeps.admitted keeps.world).1
    | error e =>
      rw [evaluate_run, compiled]
      cases e <;> exact ih
  | @global s _ name v compiled ih =>
    have bound : (Cell.plain v).value.Carries Closure.Compiled := compiled
    exact ⟨ih.cells.bindNew bound s.globals name, ih.queues⟩
  | host _ environment files compiled ih => exact ⟨ih.cells, compiled⟩

/-- A unit that ends with an exception has failed with it, or with a signal. -/
theorem exception_of_evaluate {x : Exception} (compiled : s.compile source = .ok op)
    (failed : (s.evaluate fuel source ports).1 = .failed (.exception x)) :
    (∃ site, x.site = some site ∧ (s.evaluation fuel op source ports).EndsWith (.exception x)) ∨
      ∃ signal, (s.evaluation fuel op source ports).EndsWith (.signal signal) ∧
        x = ⟨signal.escaped, some ((s.evaluation fuel op source ports).task.frame.site op.span)⟩ := by
  rw [evaluate_eq compiled] at failed
  rcases run : (s.evaluation fuel op source ports).outcome.1 with (u | _ | _ | _) | vs <;> rw [run] at failed <;>
    cases failed
  have firm : u.Firm := Evaluation.EndsWith.firm run rfl
  cases u with
  | signal signal => exact .inr ⟨signal, run, rfl⟩
  | exception x =>
    rw [Unwind.escaping_of_firm firm]
    obtain ⟨fault, _ | site⟩ := x
    · exact nomatch firm ((s.evaluation fuel op source ports).task.frame.site op.span)
    · exact .inl ⟨site, rfl, run⟩

/-- **Failures are positioned inside their sources**, in every session.  A compile error of a unit is about a window of
its code; an exception that a unit ends with has a place, which is a window of the source it names.  That source is
the one whose code raised it: all code runs in frames of its own source, and an exception is blamed on the evaluation
that it comes up in.  From there on it keeps its place, in every evaluation that it passes. -/
theorem failures_positioned (supplied : s.Supplied) :
    (∀ source' e, (s.evaluate fuel source ports).1 = .failed (.compile source' e) →
      source' = source ∧ e.span.Window source.code.toList) ∧
    (∀ x, (s.evaluate fuel source ports).1 = .failed (.exception x) →
      ∃ site, x.site = some site ∧ site.span.Window site.source.code.toList) ∧
    ∀ op, s.compile source = .ok op →
      (∀ x, (s.evaluate fuel source ports).1 = .failed (.exception x) →
        (∃ origin, (s.evaluation fuel op source ports).Encloses origin ∧ origin.Originates x) ∨
        ∃ signal, (s.evaluation fuel op source ports).EndsWith (.signal signal) ∧
          x = ⟨signal.escaped, some ((s.evaluation fuel op source ports).task.frame.site op.span)⟩) ∧
      (∀ e, (s.evaluation fuel op source ports).Encloses e →
        (∀ code ∈ e.task.code?, e.task.frame.source.Has code) ∧
        ∀ fault site, e.Originates ⟨fault, some site⟩ → e.Blames site) ∧
      ∀ outer inner fault site, (s.evaluation fuel op source ports).Encloses outer →
        outer.Passes (.exception ⟨fault, some site⟩) inner → inner.EndsWith (.exception ⟨fault, some site⟩) →
        outer.EndsWith (.exception ⟨fault, some site⟩) ∨
          outer.Lost (fun above below => ¬above.Absorbs below (.exception ⟨fault, some site⟩)) inner := by
  have unit (op : Operation) (compiled : s.compile source = .ok op) :
      (s.evaluation fuel op source ports).Keeps .ofSources := keeps_evaluation supplied.carries compiled
  refine ⟨fun source' e failed => ?_, fun x failed => ?_, fun op compiled => ⟨fun x failed => ?_, ?_, ?_⟩⟩
  · cases compiled : s.compile source with
    | ok op =>
      rw [evaluate_eq compiled] at failed
      split at failed <;> cases failed
    | error problem =>
      rw [evaluate_run, compiled] at failed
      cases problem <;> cases failed
      obtain ⟨_, ⟨⟩⟩ | ⟨builtins, globals, chunk, _, ⟨⟩, read, made⟩ := compile_error compiled
      have placed := compileUnit_placed read builtins globals
      rw [made] at placed
      exact ⟨rfl, placed⟩
  · obtain ⟨op, compiled⟩ : ∃ op, s.compile source = .ok op := by
      cases compiled : s.compile source with
      | ok op => exact ⟨op, rfl⟩
      | error problem =>
        rw [evaluate_run, compiled] at failed
        cases problem <;> cases failed
        obtain ⟨_, ⟨⟩⟩ | ⟨_, _, _, _, ⟨⟩, _⟩ := compile_error compiled
    obtain ⟨site, placed, ends⟩ | ⟨signal, left, rfl⟩ := exception_of_evaluate compiled failed
    · obtain ⟨fault, _⟩ := x
      cases placed
      obtain ⟨origin, way, originates⟩ := ends.originates
      have keeps := (unit op compiled).leads way
      exact ⟨site, rfl, (originates.blames keeps).window keeps⟩
    · exact ⟨_, rfl, ((unit op compiled).has _ rfl).window .self .operation⟩
  · obtain ⟨_, _, ends⟩ | escaped := exception_of_evaluate compiled failed
    · exact .inl ends.originates
    · exact .inr escaped
  · intro e way
    have keeps := (unit op compiled).leads way
    exact ⟨keeps.has, fun fault site originates => originates.blames keeps⟩
  · intro outer inner fault site within way ends
    have keeps := (unit op compiled).leads within
    exact way.reaches keeps ends (Unwind.firm_exception fault site) fun _ _ through => through

/-- In `fail é`, the exception is placed at the whole text, which is seven bytes long. -/
theorem failures_positioned_multibyte :
    let s := Session.start ⟨none, []⟩ ⟨[]⟩ default "1"
    let source := Source.interactive "fail é"
    s.Supplied ∧
      (s.evaluate 5 source .standard).1 = .failed (.exception ⟨.failed "é", some ⟨source, ⟨0, 7⟩, "top"⟩⟩) ∧
      Span.Window source.code.toList ⟨0, 7⟩ := by
  intro s source
  have raised : (s.evaluate 5 source .standard).1.exception? =
      some ⟨.failed "é", some ⟨source, ⟨0, 7⟩, "top"⟩⟩ := by decide +kernel
  have failed : (s.evaluate 5 source .standard).1 =
      .failed (.exception ⟨.failed "é", some ⟨source, ⟨0, 7⟩, "top"⟩⟩) := UnitOutcome.eq_of_exception? raised
  obtain ⟨site, placed, window⟩ := (failures_positioned .start).2.1 _ failed
  cases placed
  exact ⟨.start, failed, window⟩

end Session

end ValueShell
