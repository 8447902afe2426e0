/-
  How rules treat what they run.

  A rule of the evaluator runs other evaluations through its runner.  Here a rule is held to a `Conduct`: which
  tasks it may run, which unwinds of theirs it may absorb, and at which sites it may place its own
  failures.  `Follows` says that the rule keeps to it, and more:

  * what it comes to, it comes to only by running what it came to before (`apart`);
  * what cuts short an evaluation that it runs cuts it short in the same world, and an unwind that it may not
    absorb passes (`cut`, `passes`);
  * an unwind that it ends with is its own, or that of an evaluation that it ran (`blamed`);
  * the closures that it leaves behind satisfy a predicate, if those that it found did (`world`).

  There is one structural lemma for each way in which rules are put together.  The rules themselves are in
  `ConductedEvaluation`.
-/
import ValueShell.Eval.Nesting
import ValueShell.Proofs.Carried
import ValueShell.Proofs.Growth

namespace ValueShell

open Eval

/-! ## Unwinds -/

/-- No operation gives it another place: a signal, or an exception that has one. -/
def Unwind.Firm (u : Unwind) : Prop := ∀ site, u.located site = u

/-- Nothing marks a signal on its way. -/
theorem Unwind.firm_signal (s : Signal) : (Unwind.signal s).Firm := fun _ => rfl

/-- An exception that has its place keeps it. -/
theorem Unwind.firm_exception (fault : Fault) (site : Site) :
    (Unwind.exception ⟨fault, some site⟩).Firm := fun _ => rfl

/-- A signal that leaves its function has become an exception with a place. -/
theorem Unwind.firm_escaping (site : Site) (u : Unwind) :
    (Unwind.exception (escapingException site u)).Firm := by
  rcases u with s | ⟨fault, _ | at'⟩ <;> exact fun _ => rfl

/-- An exception that has a place escapes as it is. -/
theorem Unwind.escaping_of_firm {e : Exception} (h : (Unwind.exception e).Firm) (site : Site) :
    escapingException site (.exception e) = e := by
  rcases e with ⟨fault, _ | at'⟩
  · exact nomatch h site
  · rfl

/-- What is not the end of everything is on its way up, as an exception or a signal. -/
theorem Stop.unwind_of_not_final (stop : Stop) (h : ¬stop.Final) : ∃ u, stop = .unwind u := by
  cases stop with
  | unwind u => exact ⟨u, rfl⟩
  | _ => exact absurd trivial h

/-! ## Worlds -/

/-- Every closure in a variable satisfies the predicate. -/
def Store.Carries (P : Closure → Prop) (s : Store) : Prop :=
  ∀ c cell, s.cell? c = some cell → cell.value.Carries P

namespace Store.Carries

variable {P : Closure → Prop} {s : Store}

/-- A new cell keeps the store good, if what it holds is. -/
theorem newCell (h : s.Carries P) {cell : Cell} (hv : cell.value.Carries P) :
    (s.newCell cell).2.Carries P := by
  intro c found hc
  rw [Store.cell?_newCell] at hc
  split at hc
  · cases hc
    exact hv
  · exact h c found hc

theorem bindNew (h : s.Carries P) {cell : Cell} (hv : cell.value.Carries P) (scope : ScopeId)
    (name : String) : (s.bindNew scope name cell).Carries P := h.newCell hv

/-- A fresh variable holds no closure. -/
theorem declare (h : s.Carries P) (name : String) : (s.declare name).2.Carries P := by
  unfold Store.declare
  split
  · exact h.newCell .builtin
  · exact Store.Carries.newCell (s := (s.newScope []).2) h .ns
  · exact h.newCell .text

/-- And so does a cell that is replaced. -/
theorem setCell (h : s.Carries P) {cell : Cell} (hv : cell.value.Carries P) (c : CellId) :
    (s.setCell c cell).Carries P := by
  intro other found hc
  rw [Store.cell?_setCell] at hc
  split at hc
  · cases hs : s.cell? other with
    | none => rw [hs] at hc; exact nomatch hc
    | some old =>
      rw [hs] at hc
      cases hc
      exact hv
  · exact h other found hc

/-- What is read from a good store is good; an absent cell reads as an empty text. -/
theorem read (h : s.Carries P) (c : CellId) : (s.read c).Carries P := by
  unfold Store.read
  split
  · next cell hc => exact h c cell hc
  · exact .text

end Store.Carries

/-- **Every closure in the world** satisfies the predicate: those in variables, and those that wait in queues. -/
structure World.Carries (P : Closure → Prop) (w : World) : Prop where
  cells : w.store.Carries P
  queues : w.streams.Carries P

/-- The only values that are made on the spot are commands of the system. -/
theorem Frame.transient_of_find? {f : Frame} {s : Store} {ns name : String} {v : Value}
    (h : f.find? s ns name = some (.transient v)) : ∃ command, v = .function (.external command) := by
  unfold Frame.find? at h
  split at h
  · cases hx : f.findPlain? s name <;> rw [hx] at h <;> cases h
  · cases hx : s.find? f.localScope name <;> rw [hx] at h <;> cases h
  · cases hx : s.find? f.upScope name <;> rw [hx] at h <;> cases h
  · cases hx : s.find? f.setting.builtins name <;> rw [hx] at h <;> cases h
  · cases h
  · split at h <;> cases h
    exact ⟨_, rfl⟩
  · obtain ⟨scope, -, h⟩ := Option.bind_eq_some_iff.mp h
    cases hx : s.find? scope name <;> rw [hx] at h <;> cases h

/-- What a place holds is good: a cell's value, a function made on the spot, or a text of the environment. -/
theorem World.Carries.valueAt {P : Closure → Prop} {w : World} (h : w.Carries P) {f : Frame}
    {s : Store} {ns name : String} {place : Place} (found : f.find? s ns name = some place) :
    (w.valueAt place).Carries P := by
  cases place with
  | cell c => exact h.cells.read c
  | environment _ => exact .text
  | transient v =>
    obtain ⟨command, rfl⟩ := Frame.transient_of_find? found
    exact .external

/-- **What a rule is held to.** -/
structure Conduct where
  /-- the closures that there may be -/
  good : Closure → Prop
  /-- the tasks that it may run -/
  admits : Task → Prop
  /-- where it may place its failures -/
  places : Site → Prop
  /-- the unwinds of the tasks that it runs which need not pass -/
  absorbs : Task → Unwind → Prop
  /-- it may import modules, which only exceptions leave -/
  imports : Prop

namespace Conduct

variable (C : Conduct)

/-- A failure of the rule itself: it has no place yet, or one where the rule may place it. -/
def Own (u : Unwind) : Prop := ∀ e site, u = .exception e → e.site = some site → C.places site

/-- **What may become of an unwind** that a task ended with: it stays as it is, a failure without a place gets
one, and what leaves the code of a module becomes an exception of the module. -/
inductive Permits (t : Task) (u : Unwind) : Unwind → Prop
  | same : Permits t u u
  | placed {fault : Fault} {site : Site} (bare : u = .ofFault fault) (place : C.places site) :
      Permits t u (.exception ⟨fault, some site⟩)
  | escaped {op : Operation} {f : Frame} (imports : C.imports) (whole : t = .operation op f) :
      Permits t u (.exception (escapingException (f.site op.span) u))

/-- **A runner that keeps the closures good**, and whose loop is that of the evaluator. -/
structure Lawful (r : Runner) : Prop where
  loop : ∃ fuel, r.loop = (Runner.ofFuel fuel).loop
  keeps : ∀ t w, C.admits t → w.Carries C.good →
    (r.run t w).2.Carries C.good ∧ ∀ vs, (r.run t w).1 = .ok vs → ∀ v ∈ vs, v.Carries C.good

/-- The conduct that admits only those tasks that satisfy a predicate, and lets everything be absorbed. -/
def only (P : Task → Prop) : Conduct where
  good := C.good
  admits t := C.admits t ∧ P t
  places := C.places
  absorbs _ _ := True
  imports := C.imports

/-- A runner that keeps to a conduct keeps to it for fewer tasks, too. -/
theorem Lawful.only {C : Conduct} {r : Runner} (h : C.Lawful r) (P : Task → Prop) : (C.only P).Lawful r :=
  ⟨h.loop, fun t w admitted => h.keeps t w admitted.1⟩

end Conduct

/-- **The rule keeps to the conduct** when it runs in the world `w` with the runner `r`.  `own` are the unwinds
that it may end with on its own, and its result satisfies `Q`. -/
structure Conduct.FollowsIn (C : Conduct) (r : Runner) (own : Unwind → Prop) {α : Type}
    (rule : Runner → Eval α) (Q : α → Prop) (w : World) : Prop where
  world : (rule r w).2.Carries C.good
  result : ∀ a, (rule r w).1 = .ok a → Q a
  admitted : ∀ t v, Runner.Comes rule r w t v → C.admits t ∧ v.Carries C.good
  apart : ∀ t v answer, ¬Runner.Comes rule r w t v → rule (r.answering t v answer) w = rule r w
  cut : ∀ t v stop, Runner.Comes rule r w t v → (r.run t v).1 = .error stop → stop.Final →
    rule r w = (.error stop, (r.run t v).2)
  passes : ∀ t v u, Runner.Comes rule r w t v → (r.run t v).1 = .error (.unwind u) → u.Firm →
    ¬C.absorbs t u → (rule r w).1 = .error (.unwind u)
  blamed : ∀ u, (rule r w).1 = .error (.unwind u) → own u ∨
    ∃ t v u₀, Runner.Comes rule r w t v ∧ (r.run t v).1 = .error (.unwind u₀) ∧ C.Permits t u₀ u

/-- It does so in every world. -/
def Conduct.Follows (C : Conduct) (r : Runner) (own : Unwind → Prop) {α : Type}
    (rule : Runner → Eval α) (Q : α → Prop) : Prop :=
  ∀ w, w.Carries C.good → C.FollowsIn r own rule Q w

namespace Conduct

variable {C : Conduct} {r : Runner} {own : Unwind → Prop} {α β : Type} {rule : Runner → Eval α}
  {next : α → Runner → Eval β} {Q : α → Prop} {Q' : β → Prop} {w v : World} {t : Task}

/-! ## What a rule comes to -/

/-- Two exits with different codes tell them apart. -/
theorem not_every_code (outcome : Except Stop α) (h : ∀ code, outcome = .error (.exit code)) : False := by
  have same := (h 0).symm.trans (h 1)
  simp at same

/-- A rule that looks at nothing else comes to nothing. -/
theorem not_comes_const (x : Eval α) : ¬Runner.Comes (fun _ => x) r w t v :=
  not_every_code (x w).1

/-- Which tasks come up does not depend on how a rule is written down. -/
theorem comes_congr {rule' : Runner → Eval α} (h : ∀ r' : Runner, r'.loop = r.loop → rule r' = rule' r') :
    Runner.Comes rule r w t v ↔ Runner.Comes rule' r w t v := by
  have same (code : Int) : rule (r.answering t v (.error (.exit code), v)) = rule' _ := h _ rfl
  simp only [Runner.Comes, same]

/-- What a rule comes to that only looks at how its part ended, the part comes to. -/
theorem FollowsIn.comes_of (hx : C.FollowsIn r own rule Q w)
    (finish : Except Stop α × World → Except Stop β)
    (h : ∀ code, finish (rule (r.answering t v (.error (.exit code), v)) w) = .error (.exit code)) :
    Runner.Comes rule r w t v := by
  refine Classical.byContradiction fun apart => not_every_code (finish (rule r w)) fun code => ?_
  have exits := h code
  rwa [hx.apart t v _ apart] at exits

/-- What the first part comes to, the whole comes to. -/
theorem comes_first (h : Runner.Comes rule r w t v) : Runner.Comes (fun r => rule r >>= fun a => next a r) r w t v := by
  intro code
  have first := h code
  show ((rule _ >>= _) w).1 = _
  rw [bind_run]
  rcases run : rule (r.answering t v (.error (.exit code), v)) w with ⟨stop | a, w'⟩ <;> rw [run] at first
  · exact congrArg _ (Except.error.inj first)
  · exact nomatch first

/-- Whatever a rule comes to in its second part, it comes to. -/
theorem FollowsIn.comes_second (hx : C.FollowsIn r own rule Q w) {a : α} {w' : World}
    (run : rule r w = (.ok a, w')) (h : Runner.Comes (next a) r w' t v) :
    Runner.Comes (fun r => rule r >>= fun a => next a r) r w t v := by
  by_cases first : Runner.Comes rule r w t v
  · exact comes_first first
  · intro code
    show ((rule _ >>= _) w).1 = _
    rw [bind_run_ok ((hx.apart t v _ first).trans run)]
    exact h code

/-- **What two parts come to**, one of them comes to. -/
theorem FollowsIn.comes_bind (hx : C.FollowsIn r own rule Q w)
    (h : Runner.Comes (fun r => rule r >>= fun a => next a r) r w t v) :
    Runner.Comes rule r w t v ∨
      ∃ a w', rule r w = (.ok a, w') ∧ Runner.Comes (next a) r w' t v := by
  by_cases first : Runner.Comes rule r w t v
  · exact .inl first
  · right
    rcases run : rule r w with ⟨stop | a, w'⟩
    · refine (not_every_code (.error stop : Except Stop β) fun code => ?_).elim
      have exits := h code
      change ((rule _ >>= _) w).1 = _ at exits
      rwa [bind_run, hx.apart t v _ first, run] at exits
    · refine ⟨a, w', rfl, fun code => ?_⟩
      have exits := h code
      change ((rule _ >>= _) w).1 = _ at exits
      rwa [bind_run_ok ((hx.apart t v _ first).trans run)] at exits

/-! ## Weakening -/

/-- Less may be said of how a rule ends, and of what it returns. -/
theorem Follows.mono {own' : Unwind → Prop} {Q' : α → Prop} (h : C.Follows r own rule Q)
    (howns : ∀ u, own u → own' u) (hq : ∀ a, Q a → Q' a) : C.Follows r own' rule Q' :=
  fun w hw =>
    { h w hw with
      result := fun a ha => hq a ((h w hw).result a ha)
      blamed := fun u hu => ((h w hw).blamed u hu).imp_left (howns u) }

theorem Follows.post {Q' : α → Prop} (h : C.Follows r own rule Q) (hq : ∀ a, Q a → Q' a) :
    C.Follows r own rule Q' := h.mono (fun _ hu => hu) hq

/-- A rule that follows may return anything. -/
theorem Follows.any (h : C.Follows r own rule Q) : C.Follows r own rule fun _ => True :=
  h.post fun _ _ => trivial

/-- A rule is what it does with runners that have the same loop. -/
theorem Follows.congr {rule' : Runner → Eval α} (h : C.Follows r own rule Q)
    (same : ∀ r' : Runner, r'.loop = r.loop → rule' r' = rule r') : C.Follows r own rule' Q := by
  intro w hw
  have hx := h w hw
  have comes {t : Task} {v : World} : Runner.Comes rule' r w t v ↔ Runner.Comes rule r w t v :=
    comes_congr same
  have here : rule' r = rule r := same r rfl
  have there (t v answer) : rule' (r.answering t v answer) = rule _ := same _ rfl
  refine ⟨?_, ?_, ?_, ?_, ?_, ?_, ?_⟩
  all_goals simp only [comes, here, there]
  · exact hx.world
  · exact hx.result
  · exact hx.admitted
  · exact hx.apart
  · exact hx.cut
  · exact hx.passes
  · exact hx.blamed

/-! ## Parts that run nothing -/

/-- **What runs nothing** keeps the closures good, and fails on its own only. -/
structure Behaves (C : Conduct) (own : Unwind → Prop) (x : Eval α) (Q : α → Prop) (w : World) : Prop where
  world : (x w).2.Carries C.good
  result : ∀ a, (x w).1 = .ok a → Q a
  blamed : ∀ u, (x w).1 = .error (.unwind u) → own u

/-- A computation without a runner follows the conduct if it behaves in every good world. -/
theorem follows_const {x : Eval α} (h : ∀ w, w.Carries C.good → C.Behaves own x Q w) :
    C.Follows r own (fun _ => x) Q := fun w hw =>
  { world := (h w hw).world
    result := (h w hw).result
    admitted := fun _ _ comes => (not_comes_const x comes).elim
    apart := fun _ _ _ _ => rfl
    cut := fun _ _ _ comes => (not_comes_const x comes).elim
    passes := fun _ _ _ comes => (not_comes_const x comes).elim
    blamed := fun u hu => .inl ((h w hw).blamed u hu) }

theorem follows_pure {a : α} (h : Q a) : C.Follows r own (fun _ => pure a) Q :=
  follows_const fun _ hw => ⟨hw, fun b hb => by
    cases hb
    exact h, fun _ ended => nomatch ended⟩

theorem follows_throw {u : Unwind} (h : own u) : C.Follows r own (fun _ => throw (.unwind u)) Q :=
  follows_const fun _ hw => ⟨hw, nofun, fun v hv => by
    cases hv
    exact h⟩

/-- What ends everything is nobody's own. -/
theorem follows_stop {stop : Stop} (h : stop.Final) :
    C.Follows r own (fun _ => throw stop) Q :=
  follows_const fun _ hw => ⟨hw, nofun, fun u hu => by
    cases hu
    exact h.elim⟩

/-- A fault that has no place yet is a rule's own. -/
theorem own_fault (f : Fault) : C.Own (.ofFault f) := by
  rintro e site same placed
  cases same
  exact nomatch placed

/-- So is a signal that starts here. -/
theorem own_signal (s : Signal) : C.Own (.signal s) := fun _ _ same => nomatch same

/-- And so it stays once it has been given a place among those of the conduct. -/
theorem own_located {u : Unwind} {site : Site} (h : C.Own u) (place : C.places site) :
    C.Own (u.located site) := by
  rcases u with s | ⟨fault, _ | at'⟩
  · exact h
  · rintro e found same placed
    cases same
    cases placed
    exact place
  · exact h

theorem follows_fault (f : Fault) : C.Follows r C.Own (fun _ => fault f) Q :=
  follows_const fun _ hw => ⟨⟨hw.cells, hw.queues⟩, nofun, fun u hu => by
    cases hu
    exact own_fault f⟩

/-- A step that does not touch the world fails with a fault, or else returns what it has. -/
theorem follows_ofExcept {res : Except Fault α} (h : ∀ a, res = .ok a → Q a) :
    C.Follows r C.Own (fun _ => ofExcept res) Q := by
  cases res with
  | ok a => exact follows_pure (h a rfl)
  | error f => exact follows_fault f

/-! ## Parts one after the other -/

/-- The whole fails as its first part does. -/
theorem bind_error {x : Eval α} {k : α → Eval β} {stop : Stop} (h : (x w).1 = .error stop) :
    ((x >>= k) w).1 = .error stop := by
  rw [bind_run]
  rcases run : x w with ⟨stop' | a, w'⟩ <;> rw [run] at h
  · exact congrArg _ (Except.error.inj h)
  · exact nomatch h

/-- **One rule after the other**, where the second is given something that the first may return. -/
theorem follows_bind (hx : C.Follows r own rule Q) (hk : ∀ a, Q a → C.Follows r own (next a) Q') :
    C.Follows r own (fun r => rule r >>= fun a => next a r) Q' := by
  intro w hw
  have first := hx w hw
  have second {a : α} {w' : World} (run : rule r w = (.ok a, w')) : C.FollowsIn r own (next a) Q' w' := by
    refine hk a (first.result a (by rw [run])) w' ?_
    have world := first.world
    rwa [run] at world
  refine ⟨?_, ?_, ?_, ?_, ?_, ?_, ?_⟩
  · show ((rule r >>= _) w).2.Carries C.good
    have world := first.world
    rw [bind_run]
    rcases run : rule r w with ⟨stop | a, w'⟩ <;> rw [run] at world
    · exact world
    · exact (second run).world
  · intro b hb
    change ((rule r >>= _) w).1 = _ at hb
    rw [bind_run] at hb
    rcases run : rule r w with ⟨stop | a, w'⟩ <;> rw [run] at hb
    · exact nomatch hb
    · exact (second run).result b hb
  · intro t v comes
    obtain comes | ⟨a, w', run, comes⟩ := first.comes_bind comes
    · exact first.admitted t v comes
    · exact (second run).admitted t v comes
  · intro t v answer apart
    have same := first.apart t v answer fun comes => apart (comes_first comes)
    show (rule _ >>= _) w = (rule r >>= _) w
    rw [bind_run, bind_run, same]
    rcases run : rule r w with ⟨stop | a, w'⟩
    · rfl
    · exact (second run).apart t v answer fun comes => apart (first.comes_second run comes)
  · intro t v stop comes ends cut
    obtain comes | ⟨a, w', run, comes⟩ := first.comes_bind comes
    · show (rule r >>= _) w = _
      rw [bind_run, first.cut t v stop comes ends cut]
    · show (rule r >>= _) w = _
      rw [bind_run_ok run]
      exact (second run).cut t v stop comes ends cut
  · intro t v u comes ends firm through
    obtain comes | ⟨a, w', run, comes⟩ := first.comes_bind comes
    · exact bind_error (first.passes t v u comes ends firm through)
    · show ((rule r >>= _) w).1 = _
      rw [bind_run_ok run]
      exact (second run).passes t v u comes ends firm through
  · intro u hu
    change ((rule r >>= _) w).1 = _ at hu
    rw [bind_run] at hu
    rcases run : rule r w with ⟨stop | a, w'⟩ <;> rw [run] at hu
    · refine (first.blamed u (by rw [run]; exact congrArg _ (Except.error.inj hu))).imp_right ?_
      rintro ⟨t, v, u₀, comes, ends, permits⟩
      exact ⟨t, v, u₀, comes_first comes, ends, permits⟩
    · refine ((second run).blamed u hu).imp_right ?_
      rintro ⟨t, v, u₀, comes, ends, permits⟩
      exact ⟨t, v, u₀, first.comes_second run comes, ends, permits⟩

/-- The same where nothing is said of what the first rule returns. -/
theorem follows_then (hx : C.Follows r own rule Q) (hk : ∀ a, C.Follows r own (next a) Q') :
    C.Follows r own (fun r => rule r >>= fun a => next a r) Q' := follows_bind hx fun a _ => hk a

/-- Looking at the world changes nothing. -/
theorem follows_get {next : World → Runner → Eval β}
    (hk : ∀ w, w.Carries C.good → C.Follows r own (next w) Q') :
    C.Follows r own (fun r => get >>= fun w => next w r) Q' := by
  intro w hw
  have here := hk w hw w hw
  exact ⟨here.world, here.result, here.admitted, here.apart, here.cut, here.passes, here.blamed⟩

/-! ## Changes of an unwind -/

/-- A change that spares what ends everything does not change what the rule comes to. -/
theorem FollowsIn.comes_mapStop {change : Stop → Stop} (hx : C.FollowsIn r own rule Q w)
    (cuts : ∀ stop : Stop, stop.Final → change stop = stop) :
    Runner.Comes (fun r => (rule r).mapStop change) r w t v ↔ Runner.Comes rule r w t v := by
  constructor
  · intro h
    refine hx.comes_of (fun outcome => outcome.1.mapError change) fun code => ?_
    have exits := h code
    simp only [mapStop_run] at exits
    exact exits
  · intro h code
    simp only [mapStop_run, h code]
    exact congrArg Except.error (cuts (.exit code) trivial)

/-- A rule whose unwinds are changed, but for those that have to pass. -/
theorem follows_mapStop {change : Stop → Stop} (hx : C.Follows r own rule Q)
    (cuts : ∀ stop : Stop, stop.Final → change stop = stop)
    (passes : ∀ w t v u, w.Carries C.good → Runner.Comes rule r w t v → u.Firm → ¬C.absorbs t u →
      change (.unwind u) = .unwind u)
    (owns : ∀ u u', change (.unwind u) = .unwind u' → own u → own u')
    (permits : ∀ w t v u₀ u u', w.Carries C.good → Runner.Comes rule r w t v →
      change (.unwind u) = .unwind u' → C.Permits t u₀ u → own u' ∨ C.Permits t u₀ u') :
    C.Follows r own (fun r => (rule r).mapStop change) Q := by
  intro w hw
  have hx := hx w hw
  have run (r : Runner) : (rule r).mapStop change w = (((rule r w).1).mapError change, (rule r w).2) :=
    mapStop_run change (rule r) w
  have comes {t : Task} {v : World} : Runner.Comes (fun r => (rule r).mapStop change) r w t v →
      Runner.Comes rule r w t v := (hx.comes_mapStop cuts).mp
  have comes' {t : Task} {v : World} : Runner.Comes rule r w t v →
      Runner.Comes (fun r => (rule r).mapStop change) r w t v := (hx.comes_mapStop cuts).mpr
  have error {stop : Stop} (h : (rule r w).1 = .error stop) :
      ((rule r).mapStop change w).1 = .error (change stop) := by
    rw [run, h]
    rfl
  refine ⟨?_, ?_, ?_, ?_, ?_, ?_, ?_⟩
  · simp only [run]
    exact hx.world
  · intro a ha
    simp only [run] at ha
    refine hx.result a ?_
    cases ends : (rule r w).1 with
    | error stop =>
      rw [ends] at ha
      cases ha
    | ok b =>
      rw [ends] at ha
      cases ha
      rfl
  · exact fun t v h => hx.admitted t v (comes h)
  · intro t v answer apart
    simp only [run, hx.apart t v answer fun h => apart (comes' h)]
  · intro t v stop h ends cut
    show (rule r).mapStop change w = _
    rw [run, hx.cut t v stop (comes h) ends cut]
    exact congrArg (fun stop => (Except.error stop, _)) (cuts stop cut)
  · intro t v u h ends firm through
    rw [error (hx.passes t v u (comes h) ends firm through), passes w t v u hw (comes h) firm through]
  · intro u' hu'
    simp only [run] at hu'
    cases ends : (rule r w).1 with
    | ok b =>
      rw [ends] at hu'
      cases hu'
    | error stop =>
      rw [ends] at hu'
      have changed : change stop = .unwind u' := Except.error.inj hu'
      by_cases final : stop.Final
      · rw [cuts stop final] at changed
        exact absurd final (changed ▸ id)
      · obtain ⟨u, rfl⟩ := stop.unwind_of_not_final final
        obtain mine | ⟨t, v, u₀, h, from', allowed⟩ := hx.blamed u ends
        · exact .inl (owns u u' changed mine)
        · exact (permits w t v u₀ u u' hw h changed allowed).imp_right fun allowed =>
            ⟨t, v, u₀, comes' h, from', allowed⟩

/-- What a task permits is permitted, too, once it has a place. -/
theorem Permits.located {u₀ u : Unwind} {site : Site} (h : C.Permits t u₀ u) (place : C.places site) :
    C.Permits t u₀ (u.located site) := by
  cases h with
  | same =>
    rcases u₀ with s | ⟨fault, _ | at'⟩
    · exact .same
    · exact .placed rfl place
    · exact .same
  | placed bare known => exact .placed bare known
  | @escaped op f imports whole =>
    rw [Unwind.firm_escaping]
    exact .escaped imports whole

/-- A place is given to unwinds alone. -/
theorem located_final {site : Site} (stop : Stop) :
    stop.Final → (match stop with
      | .unwind u => Stop.unwind (u.located site)
      | other => other) = stop := by
  intro final
  cases stop with
  | unwind u => exact final.elim
  | _ => rfl

/-- To give a failure a place brings up no task and changes none. -/
theorem FollowsIn.comes_located {site : Site} (hx : C.FollowsIn r own rule Q w) :
    Runner.Comes (fun r => (rule r).located site) r w t v ↔ Runner.Comes rule r w t v :=
  hx.comes_mapStop located_final

/-- A rule that gives failures a place follows the conduct, if the place is one of the conduct's. -/
theorem follows_located {site : Site} (place : C.places site) (hx : C.Follows r C.Own rule Q) :
    C.Follows r C.Own (fun r => (rule r).located site) Q := by
  refine follows_mapStop hx located_final (fun _ _ _ u _ _ firm _ => ?_) (fun u u' changed own => ?_)
    fun _ t _ u₀ u u' _ _ changed allowed => .inr ?_
  · exact congrArg Stop.unwind (firm site)
  · cases changed
    exact own_located own place
  · cases changed
    exact allowed.located place

/-- An operation is its rule, placed; it has no values. -/
theorem FollowsIn.comes_placed {rule : Runner → Eval Unit} {Q : Unit → Prop} {site : Site}
    (hx : C.FollowsIn r own rule Q w) :
    Runner.Comes (fun r => (rule r).located site >>= fun _ => (return [] : Eval (List Value))) r w t v ↔
      Runner.Comes rule r w t v := by
  constructor
  · exact fun h => hx.comes_of (fun outcome => ((located site (fun _ => outcome : Eval Unit) >>=
      fun _ => (return [] : Eval (List Value))) w).1) h
  · exact fun h => comes_first (hx.comes_located.mpr h)

/-! ## Looking at how a part ended -/

/-- The conduct that lets everything be absorbed. -/
def lenient (C : Conduct) : Conduct := { C with absorbs := fun _ _ => True }

/-- Where anything may be a rule's own, one says less. -/
theorem FollowsIn.lenient (h : C.FollowsIn r own rule Q w) :
    C.lenient.FollowsIn r (fun _ => True) rule Q w where
  world := h.world
  result := h.result
  admitted := h.admitted
  apart := h.apart
  cut := h.cut
  passes _ _ _ _ _ _ through := absurd trivial through
  blamed _ _ := .inl trivial

/-- What ends well is settled as done. -/
theorem settle_ok {x : Eval α} {a : α} {w' : World} (h : x w = (.ok a, w')) :
    settle x w = (.ok (.ok a), w') := by rw [settle, h]

/-- What is on its way up is settled as such, and the run goes on. -/
theorem settle_unwind {x : Eval α} {u : Unwind} {w' : World} (h : x w = (.error (.unwind u), w')) :
    settle x w = (.ok (.error u), w') := by rw [settle, h]

/-- But nothing settles what ends everything. -/
theorem settle_final {x : Eval α} {stop : Stop} {w' : World} (final : stop.Final)
    (h : x w = (.error stop, w')) : settle x w = (.error stop, w') := by
  rw [settle, h]
  cases stop with
  | unwind u => exact final.elim
  | _ => rfl

/-- The ways in which a part ends, and what is seen of it. -/
theorem settle_cases (x : Eval α) (w : World) :
    (∃ res w', settle x w = (.ok res, w') ∧ x w = (res.mapError .unwind, w')) ∨
      ∃ stop w', stop.Final ∧ settle x w = (.error stop, w') ∧ x w = (.error stop, w') := by
  rcases run : x w with ⟨stop | a, w'⟩
  · by_cases final : stop.Final
    · exact .inr ⟨stop, w', final, settle_final final run, rfl⟩
    · obtain ⟨u, rfl⟩ := stop.unwind_of_not_final final
      exact .inl ⟨.error u, w', settle_unwind run, rfl⟩
  · exact .inl ⟨.ok a, w', settle_ok run, rfl⟩

/-- To settle a rule brings up the same tasks. -/
theorem FollowsIn.comes_settle (hx : C.FollowsIn r own rule Q w) :
    Runner.Comes (fun r => settle (rule r)) r w t v ↔ Runner.Comes rule r w t v := by
  constructor
  · exact fun h => hx.comes_of (fun outcome => (settle (fun _ => outcome) w).1) h
  · intro h code
    rcases run : rule (r.answering t v (.error (.exit code), v)) w with ⟨stop | a, w'⟩
    · have exits := h code
      rw [run] at exits
      cases exits
      have final : (Stop.exit code).Final := trivial
      exact congrArg Prod.fst (settle_final final run)
    · have exits := h code
      rw [run] at exits
      exact nomatch exits

/-- A part that is settled has a result even where it ends with an unwind. -/
theorem FollowsIn.settle (hx : C.FollowsIn r own rule Q w) :
    C.lenient.FollowsIn r (fun _ => True) (fun r => settle (rule r)) (fun res => ∀ a, res = .ok a → Q a)
      w where
  world := by
    have world := hx.world
    obtain ⟨res, w', here, run⟩ | ⟨stop, w', -, here, run⟩ := settle_cases (rule r) w
    · rw [here]
      rwa [run] at world
    · rw [here]
      rwa [run] at world
  result res here a same := by
    subst same
    obtain ⟨res', w', here', run⟩ | ⟨stop, w', -, here', run⟩ := settle_cases (rule r) w
    · rw [here'] at here
      cases here
      exact hx.result a (by rw [run]; rfl)
    · rw [here'] at here
      exact nomatch here
  admitted t v comes := hx.admitted t v (hx.comes_settle.mp comes)
  apart t v answer apart := by
    show Eval.settle _ w = Eval.settle _ w
    rw [Eval.settle, Eval.settle, hx.apart t v answer fun comes => apart (hx.comes_settle.mpr comes)]
  cut t v stop comes ends final :=
    settle_final final (hx.cut t v stop (hx.comes_settle.mp comes) ends final)
  passes _ _ _ _ _ _ through := absurd trivial through
  blamed _ _ := .inl trivial

variable {after : Except Unwind α → Runner → Eval β}

/-- **A part that is settled**, and what follows it.  An unwind of the part that has to pass is passed on by what
follows. -/
theorem follows_settled (hx : C.Follows r own rule Q)
    (hk : ∀ res, (∀ a, res = .ok a → Q a) →
      C.Follows r (fun u => own u ∨ res = .error u) (after res) Q')
    (passes : ∀ w t v u, w.Carries C.good → Runner.Comes rule r w t v → u.Firm → ¬C.absorbs t u →
      ∀ w', (after (.error u) r w').1 = .error (.unwind u)) :
    C.Follows r own (fun r => settle (rule r) >>= fun res => after res r) Q' := by
  have whole : C.lenient.Follows r (fun _ => True) (fun r => settle (rule r) >>= fun res => after res r) Q' :=
    follows_bind (fun w hw => (hx w hw).settle) fun res hres w hw => (hk res hres w hw).lenient
  intro w hw
  have whole := whole w hw
  have first := (hx w hw).settle
  have second {res : Except Unwind α} {w' : World} (run : settle (rule r) w = (.ok res, w')) :
      C.FollowsIn r (fun u => own u ∨ res = .error u) (after res) Q' w' := by
    refine hk res (first.result res (by rw [run])) w' ?_
    have world := first.world
    rwa [run] at world
  refine ⟨whole.world, whole.result, whole.admitted, whole.apart, whole.cut, ?_, ?_⟩
  · intro t v u comes ends firm through
    show ((settle (rule r) >>= _) w).1 = _
    obtain comes | ⟨res, w', run, comes⟩ := first.comes_bind comes
    · have comes := (hx w hw).comes_settle.mp comes
      have unwinds := (hx w hw).passes t v u comes ends firm through
      rcases run : rule r w with ⟨stop | a, w'⟩ <;> rw [run] at unwinds
      · cases unwinds
        rw [bind_run_ok (settle_unwind run)]
        exact passes w t v u hw comes firm through w'
      · exact nomatch unwinds
    · rw [bind_run_ok run]
      exact (second run).passes t v u comes ends firm through
  · intro u hu
    change ((settle (rule r) >>= _) w).1 = _ at hu
    obtain ⟨res, w', here, run⟩ | ⟨stop, w', final, here, run⟩ := settle_cases (rule r) w
    · rw [bind_run_ok here] at hu
      obtain (mine | same) | ⟨t, v, u₀, comes, ends, permits⟩ := (second here).blamed u hu
      · exact .inl mine
      · subst same
        refine ((hx w hw).blamed u (by rw [run]; rfl)).imp_right ?_
        rintro ⟨t, v, u₀, comes, ends, permits⟩
        exact ⟨t, v, u₀, comes_first ((hx w hw).comes_settle.mpr comes), ends, permits⟩
      · exact .inr ⟨t, v, u₀, first.comes_second here comes, ends, permits⟩
    · rw [bind_run, here] at hu
      cases hu
      exact final.elim

/-! ## Running a task -/

/-- To run the task of an operation is to run the operation, which returns nothing. -/
theorem run_operation (r : Runner) (op : Operation) (f : Frame) (w : World) :
    r.run (.operation op f) w = ((r.operation op f w).1.map fun _ => [], (r.operation op f w).2) := by
  show (r.operation op f >>= _) w = _
  rw [bind_run]
  rcases r.operation op f w with ⟨_ | _, _⟩ <;> rfl

/-- And a call returns nothing, either. -/
theorem run_call (r : Runner) (callable : Callable) (args : List Value) (mode : CallMode) (f : Frame)
    (w : World) : r.run (.call callable args mode f) w =
      ((r.call callable args mode f w).1.map fun _ => [], (r.call callable args mode f w).2) := by
  show (r.call callable args mode f >>= _) w = _
  rw [bind_run]
  rcases r.call callable args mode f w with ⟨_ | _, _⟩ <;> rfl

/-- A change of what is returned does not touch failures. -/
theorem map_eq_error {γ δ : Type} {change : γ → δ} {outcome : Except Stop γ} {stop : Stop} :
    outcome.map change = .error stop ↔ outcome = .error stop := by
  cases outcome with
  | ok a => exact ⟨nofun, nofun⟩
  | error s => exact ⟨fun h => congrArg _ (Except.error.inj h), fun h => congrArg _ (Except.error.inj h)⟩

/-- What a rule comes to that only runs one task. -/
theorem comes_task {t₀ : Task}
    (hit : ∀ answer stop, answer.1 = .error stop → (rule (r.answering t₀ w answer) w).1 = .error stop)
    (miss : ∀ t v answer, ¬(t = t₀ ∧ v = w) → rule (r.answering t v answer) w = rule r w) :
    Runner.Comes rule r w t v ↔ t = t₀ ∧ v = w := by
  constructor
  · intro h
    refine Classical.byContradiction fun other => not_every_code (rule r w).1 fun code => ?_
    have exits := h code
    rwa [miss t v _ other] at exits
  · rintro ⟨rfl, rfl⟩ code
    exact hit _ _ rfl

/-- An operation brings up itself and nothing else: whatever it contains comes up in its own run. -/
theorem comes_operation {op : Operation} {f : Frame} :
    Runner.Comes (fun r => r.operation op f) r w t v ↔ t = .operation op f ∧ v = w :=
  comes_task (fun _ _ h => (congrArg Prod.fst (if_pos ⟨rfl, rfl⟩)).trans (map_eq_error.mpr h))
    fun _ _ _ other => if_neg other

/-- So does an expression. -/
theorem comes_expr {e : Expr} {f : Frame} :
    Runner.Comes (fun r => r.expr e f) r w t v ↔ t = .expr e f ∧ v = w :=
  comes_task (fun _ _ h => (congrArg Prod.fst (if_pos ⟨rfl, rfl⟩)).trans h)
    fun _ _ _ other => if_neg other

/-- And so does a call. -/
theorem comes_call {callable : Callable} {args : List Value} {mode : CallMode} {f : Frame} :
    Runner.Comes (fun r => r.call callable args mode f) r w t v ↔
      t = .call callable args mode f ∧ v = w :=
  comes_task (fun _ _ h => (congrArg Prod.fst (if_pos ⟨rfl, rfl⟩)).trans (map_eq_error.mpr h))
    fun _ _ _ other => if_neg other

/-- A rule that only runs one task. -/
theorem follows_task {t₀ : Task} (hr : C.Lawful r) (admitted : C.admits t₀)
    (comes : ∀ {w t v}, Runner.Comes rule r w t v ↔ t = t₀ ∧ v = w)
    (miss : ∀ w t v answer, ¬(t = t₀ ∧ v = w) → rule (r.answering t v answer) w = rule r w)
    (world : ∀ w, (rule r w).2 = (r.run t₀ w).2)
    (errors : ∀ w stop, (rule r w).1 = .error stop ↔ (r.run t₀ w).1 = .error stop)
    (result : ∀ w a, w.Carries C.good → (rule r w).1 = .ok a → Q a) : C.Follows r own rule Q := by
  intro w hw
  refine ⟨world w ▸ (hr.keeps t₀ w admitted hw).1, fun a => result w a hw, ?_, ?_, ?_, ?_, ?_⟩
  · intro t v h
    obtain ⟨rfl, rfl⟩ := comes.mp h
    exact ⟨admitted, hw⟩
  · exact fun t v answer h => miss w t v answer fun same => h (comes.mpr same)
  · intro t v stop h ends _
    obtain ⟨rfl, rfl⟩ := comes.mp h
    exact Prod.ext ((errors v stop).mpr ends) (world v)
  · intro t v u h ends _ _
    obtain ⟨rfl, rfl⟩ := comes.mp h
    exact (errors v _).mpr ends
  · intro u hu
    exact .inr ⟨t₀, w, u, comes.mpr ⟨rfl, rfl⟩, (errors w _).mp hu, .same⟩

/-- The runner may be handed any operation that the conduct admits. -/
theorem follows_operation (hr : C.Lawful r) {op : Operation} {f : Frame}
    (h : C.admits (.operation op f)) : C.Follows r own (fun r => r.operation op f) fun _ => True :=
  follows_task hr h comes_operation (fun _ _ _ _ other => if_neg other)
    (fun w => by rw [run_operation])
    (fun w stop => by rw [run_operation, map_eq_error]) fun _ _ _ _ => trivial

/-- Any expression; its values are good. -/
theorem follows_expr (hr : C.Lawful r) {e : Expr} {f : Frame} (h : C.admits (.expr e f)) :
    C.Follows r own (fun r => r.expr e f) fun vs => ∀ v ∈ vs, v.Carries C.good :=
  follows_task hr h comes_expr (fun _ _ _ _ other => if_neg other) (fun _ => rfl) (fun _ _ => .rfl)
    fun w vs hw ends => (hr.keeps _ w h hw).2 vs ends

/-- And any call. -/
theorem follows_call (hr : C.Lawful r) {callable : Callable} {args : List Value} {mode : CallMode}
    {f : Frame} (h : C.admits (.call callable args mode f)) :
    C.Follows r own (fun r => r.call callable args mode f) fun _ => True :=
  follows_task hr h comes_call (fun _ _ _ _ other => if_neg other)
    (fun w => by rw [run_call])
    (fun w stop => by rw [run_call, map_eq_error]) fun _ _ _ _ => trivial

/-! ## Boundaries -/

/-- The body of a loop, which absorbs the signals of loops. -/
theorem follows_loopBody {rule : Runner → Eval Unit} (hx : C.Follows r own rule fun _ => True)
    (absorbs : ∀ w t v s, w.Carries C.good → Runner.Comes rule r w t v → s ≠ .return →
      C.absorbs t (.signal s)) : C.Follows r own (fun r => loopBody (rule r)) fun _ => True := by
  refine follows_settled hx (fun res _ => ?_) fun w t v u hw comes _ through w' => ?_
  · split
    · exact follows_pure trivial
    · exact follows_pure trivial
    · exact follows_pure trivial
    · exact follows_throw (.inr rfl)
  · cases u with
    | exception e => rfl
    | signal s =>
      cases s with
      | «return» => rfl
      | «break» => exact absurd (absorbs w t v .break hw comes (by decide)) through
      | «continue» => exact absurd (absorbs w t v .continue hw comes (by decide)) through

/-- A call that `return` ends. -/
theorem follows_returning {rule : Runner → Eval Unit} (hx : C.Follows r own rule fun _ => True)
    (absorbs : ∀ t, C.absorbs t (.signal .return)) :
    C.Follows r own (fun r => returning (rule r)) fun _ => True := by
  refine follows_settled hx (fun res _ => ?_) fun w t v u hw comes _ through w' => ?_
  · split
    · exact follows_pure trivial
    · cases res with
      | ok a => exact follows_pure trivial
      | error u => exact follows_throw (.inr rfl)
  · cases u with
    | exception e => rfl
    | signal s =>
      cases s with
      | «return» => exact absurd (absorbs t) through
      | _ => rfl

/-! ## Repetition -/

section Repetition

variable {items : List α}

/-- A loop over the items follows the conduct if each of its steps does. -/
theorem follows_forEach {step : α → Runner → Eval Bool}
    (h : ∀ a ∈ items, C.Follows r own (step a) fun _ => True) :
    C.Follows r own (fun r => forEach (fun a => step a r) items) fun _ => True := by
  induction items with
  | nil => exact follows_pure trivial
  | cons item rest ih =>
    refine follows_then (h item List.mem_cons_self) fun goesOn => ?_
    split
    · exact ih fun a ha => h a (List.mem_cons_of_mem _ ha)
    · exact follows_pure trivial

theorem follows_forM {step : α → Eval Unit}
    (h : ∀ a ∈ items, C.Follows r own (fun _ => step a) fun _ => True) :
    C.Follows r own (fun _ => items.forM step) fun _ => True := by
  induction items with
  | nil => exact follows_pure trivial
  | cons item rest ih =>
    exact follows_then (h item List.mem_cons_self) fun _ => ih fun a ha => h a (List.mem_cons_of_mem _ ha)

theorem follows_mapM {step : α → Eval β} (h : ∀ a ∈ items, C.Follows r own (fun _ => step a) Q') :
    C.Follows r own (fun _ => items.mapM step) fun found => ∀ b ∈ found, Q' b := by
  induction items with
  | nil => exact follows_pure nofun
  | cons item rest ih =>
    simp only [List.mapM_cons]
    refine follows_bind (h item List.mem_cons_self) fun b hb =>
      follows_bind (ih fun a ha => h a (List.mem_cons_of_mem _ ha)) fun bs hbs => follows_pure ?_
    exact List.forall_mem_cons.mpr ⟨hb, hbs⟩

/-- A fold keeps what is known of its result so far. -/
theorem follows_foldlM {step : β → α → Runner → Eval β} {b : β} (hb : Q' b)
    (h : ∀ b, ∀ a ∈ items, Q' b → C.Follows r own (step b a) Q') :
    C.Follows r own (fun r => items.foldlM (fun b a => step b a r) b) Q' := by
  induction items generalizing b with
  | nil => exact follows_pure hb
  | cons item rest ih =>
    simp only [List.foldlM_cons]
    exact follows_bind (h b item List.mem_cons_self hb) fun b' hb' =>
      ih hb' fun b a ha => h b a (List.mem_cons_of_mem _ ha)

/-- A loop of the evaluator, whose rounds are taken with the runner. -/
theorem follows_loop (hr : C.Lawful r) {step : Runner → Eval Bool}
    (h : C.Follows r own step fun _ => True) :
    C.Follows r own (fun r => r.loop (step r)) fun _ => True := by
  obtain ⟨fuel, hloop⟩ := hr.loop
  suffices C.Follows r own (fun r => (Runner.ofFuel fuel).loop (step r)) fun _ => True from
    this.congr fun r' same => by rw [same, hloop]
  clear hloop
  induction fuel with
  | zero => exact follows_stop trivial
  | succ fuel ih =>
    refine follows_then h fun goesOn => ?_
    split
    · exact ih
    · exact follows_pure trivial

end Repetition

/-! ## The parts of the world -/

section Parts

/-- A change of the store has to keep it good. -/
theorem follows_updateStore {change : Store → α × Store}
    (h : ∀ s : Store, s.Carries C.good → (change s).2.Carries C.good ∧ Q (change s).1) :
    C.Follows r own (fun _ => updateStore change) Q :=
  follows_const fun w hw => ⟨⟨(h w.store hw.cells).1, hw.queues⟩, fun a ha => by
    cases ha
    exact (h w.store hw.cells).2, fun _ ended => nomatch ended⟩

theorem follows_newScope (entries : Store → Table CellId) :
    C.Follows r own (fun _ => updateStore fun s => s.newScope (entries s)) fun _ => True :=
  follows_updateStore fun _ h => ⟨h, trivial⟩

theorem follows_newIdentity : C.Follows r own (fun _ => updateStore Store.newIdentity) fun _ => True :=
  follows_updateStore fun _ h => ⟨h, trivial⟩

/-- A new variable needs a good value. -/
theorem follows_bindNew (scope : ScopeId) (name : String) {cell : Cell}
    (hv : cell.value.Carries C.good) :
    C.Follows r own (fun _ => updateStore fun s => ((), s.bindNew scope name cell)) fun _ => True :=
  follows_updateStore fun _ h => ⟨h.bindNew hv scope name, trivial⟩

/-- Nothing is needed to unbind a name. -/
theorem follows_unbind (scope : ScopeId) (name : String) :
    C.Follows r own (fun _ => updateStore fun s => ((), s.unbind scope name)) fun _ => True :=
  follows_updateStore fun _ h => ⟨h, trivial⟩

/-- A change of the streams has to keep the queued values good. -/
theorem follows_updateStreams {change : Streams → α × Streams}
    (h : ∀ s : Streams, s.Carries C.good → (change s).2.Carries C.good ∧ Q (change s).1) :
    C.Follows r own (fun _ => updateStreams change) Q :=
  follows_const fun w hw => ⟨⟨hw.cells, (h w.streams hw.queues).1⟩, fun a ha => by
    cases ha
    exact (h w.streams hw.queues).2, fun _ ended => nomatch ended⟩

theorem follows_note (e : Event) : C.Follows r own (fun _ => note e) fun _ => True :=
  follows_const fun _ hw => ⟨⟨hw.cells, hw.queues⟩, fun _ _ => trivial, fun _ ended => nomatch ended⟩

/-- The cache holds no values, and may be changed freely. -/
theorem follows_updateModules (change : ModuleCache → ModuleCache) :
    C.Follows r own (fun _ => updateModules change) fun _ => True :=
  follows_const fun _ hw => ⟨⟨hw.cells, hw.queues⟩, fun _ _ => trivial, fun _ ended => nomatch ended⟩

/-- So may the environment. -/
theorem follows_tryEnvironment {ε : Type} (change : Environment → Except ε Environment) :
    C.Follows r own (fun _ => tryEnvironment change) fun _ => True :=
  follows_const fun w hw => by
    cases run : change w.environment with
    | error e =>
      have here : tryEnvironment change w = (.ok (.error e), w) := by rw [tryEnvironment, get_bind_run, run]; rfl
      exact ⟨by rwa [here], fun _ _ => trivial, fun u hu => by rw [here] at hu; cases hu⟩
    | ok environment =>
      have here : tryEnvironment change w = (.ok (.ok ()), { w with environment }) := by
        rw [tryEnvironment, get_bind_run, run]; rfl
      exact ⟨by rw [here]; exact ⟨hw.cells, hw.queues⟩, fun _ _ => trivial,
        fun u hu => by rw [here] at hu; cases hu⟩

/-- A change of a cell that puts nothing into it but what is good. -/
theorem follows_tryCell {ε : Type} {c : CellId} {change : Cell → Except ε Cell}
    (h : ∀ cell cell', change cell = .ok cell' → cell.value.Carries C.good →
      cell'.value.Carries C.good) : C.Follows r own (fun _ => tryCell c change) fun _ => True :=
  follows_const fun w hw => by
    cases run : w.store.changeCell c change with
    | error e =>
      have here : tryCell c change w = (.ok (.error e), w) := by rw [tryCell_run, run]
      exact ⟨by rwa [here], fun _ _ => trivial, fun u hu => by rw [here] at hu; exact nomatch hu⟩
    | ok store =>
      have here : tryCell c change w = (.ok (.ok ()), { w with store }) := by rw [tryCell_run, run]
      refine ⟨?_, fun _ _ => trivial, fun u hu => by rw [here] at hu; exact nomatch hu⟩
      rw [here]
      refine ⟨?_, hw.queues⟩
      unfold Store.changeCell at run
      split at run
      · next cell hc =>
        cases changed : change cell with
        | error e => rw [changed] at run; exact nomatch run
        | ok cell' =>
          rw [changed] at run
          cases run
          exact hw.cells.setCell (h cell cell' changed (hw.cells c cell hc)) c
      · cases run
        exact hw.cells

/-- An assignment needs a good value; the cell may refuse it. -/
theorem follows_assign {v : Value} (hv : v.Carries C.good) (c : CellId) :
    C.Follows r own (fun _ => tryCell c fun cell => cell.assign v) fun _ => True :=
  follows_tryCell fun cell cell' assigned _ => by
    rw [Cell.assign_eq assigned]
    exact hv

end Parts

end Conduct

end ValueShell
