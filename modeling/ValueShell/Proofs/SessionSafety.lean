/-
  Sessions of orderly code.

  A session starts with the builtins and no global variables.  From then on its state changes by the units
  that it evaluates, by global variables that the host binds, and by what the host does around it: it
  feeds the streams and changes the environment and the files.  `Reached` are the states that this can
  lead to, for units that are orderly.

  All of them are sound (`Reached.sound`), no matter how the units ended: a failed unit has still bound
  names, and the next one runs with them.  What remains is to read off what a sound journal rules out.

    * A variable is not found only where the scope check does not vouch for it: in a namespace, in the
      local scope alone, above for a builtin that was taken early, or as a command of the system.
    * The same holds of the base of a target with brackets.  Here code does run into it, since the scope
      check calls such a base known on the same grounds.
-/
import Mathlib
import ValueShell.Proofs.ScopeSafety
import ValueShell.Session.Basic

namespace ValueShell

namespace Session

/-! ## The states of a session -/

/-- Every closure that the session holds, in a variable or in a stream. -/
structure Carries (P : Closure → Prop) (s : Session) : Prop where
  cells : ∀ c cell, s.world.store.cell? c = some cell → cell.value.Carries P
  streams : s.world.streams.Carries P

/-- **The states of a session** whose units are orderly.  The host makes no closures of its own. -/
inductive Reached (early : String → Prop) : Session → Prop
  | start {library : Library} {environment : Environment} {files : FileTree} {processId : String} :
      Reached early (.start library environment files processId)
  | unit {s : Session} {fuel : Nat} {source : Source} {ports : Ports} (before : Reached early s)
      (orderly : ∀ op, s.compile source = .ok op → op.Orderly early) :
      Reached early (s.evaluate fuel source ports).2
  | global {s : Session} {name : String} {v : Value} (before : Reached early s)
      (known : ∀ P, s.Carries P → v.Carries P) : Reached early (s.bindGlobal name v)
  | host {s : Session} {streams : Streams} {environment : Environment} {files : FileTree}
      (before : Reached early s) (known : ∀ P, s.Carries P → streams.Carries P) :
      Reached early (s.mapWorld fun w => { w with streams, environment, files })

/-- What is settled for the session. -/
def ground (early : String → Prop) (s : Session) : Ground :=
  ⟨s.setting.builtins, s.world.store.names s.setting.builtins, early⟩

/-- Everything is in order in the session. -/
def Sound (early : String → Prop) (s : Session) : Prop :=
  s.world.Sound (s.ground early) [s.globals]

variable {early : String → Prop} {s : Session}

/-- In a sound session, all closures are founded. -/
theorem Sound.carries (h : s.Sound early) :
    s.Carries (Closure.Founded (s.ground early) [s.globals] s.world.store) := ⟨h.cells, h.queues⟩

/-- The builtins of a session stay the same. -/
theorem Sound.mapWorld {w : World} (h : w.Sound (s.ground early) [s.globals]) :
    Session.Sound early { s with world := w } := by
  have same : Session.ground early { s with world := w } = s.ground early :=
    congrArg (Ground.mk s.setting.builtins · early) h.names
  rw [Sound, same]
  exact h

/-! ## The start -/

/-- The scope holds constants, and so do all cells. -/
structure Constants (scope : ScopeId) (s : Store) : Prop where
  known : scope.index < s.scopes.size
  found : ∀ name c, s.find? scope name = some c →
    ∃ cell, s.cell? c = some cell ∧ cell.readOnly = true
  cells : ∀ c cell, s.cell? c = some cell → ∀ P, cell.value.Carries P

/-- One constant more. -/
theorem Constants.bindNew {scope : ScopeId} {s : Store} (h : Constants scope s) (name : String)
    {v : Value} (hv : ∀ P, v.Carries P) : Constants scope (s.bindNew scope name (.constant v)) := by
  have cell?_bindNew (c : CellId) : (s.bindNew scope name (.constant v)).cell? c =
      if c.index = s.cells.size then some (.constant v) else s.cell? c := Store.cell?_newCell s _ c
  refine ⟨?_, fun x c hc => ?_, fun c cell hc => ?_⟩
  · rw [Store.size_bindNew]
    exact h.known
  · change Table.find? ((Store.bind (s.newCell (.constant v)).2 scope name _).scope scope) x =
      some c at hc
    rw [Store.scope_bind_self (s.newCell (.constant v)).2 _ _ h.known, Table.find?_insert] at hc
    split at hc
    · cases hc
      exact ⟨.constant v, by rw [cell?_bindNew, if_pos rfl], rfl⟩
    · obtain ⟨cell, hcell, hro⟩ := h.found x c hc
      exact ⟨cell, Store.cell?_newCell_of_some s _ hcell, hro⟩
  · rw [cell?_bindNew] at hc
    split at hc
    · cases hc
      exact hv
    · exact h.cells c cell hc

/-- All constants of a list. -/
theorem Constants.bindConstants {scope : ScopeId} {bindings : List (String × Value)}
    (hb : ∀ b ∈ bindings, ∀ P, b.2.Carries P) {s : Store} (h : Constants scope s) :
    Constants scope (s.bindConstants scope bindings) := by
  induction bindings generalizing s with
  | nil => exact h
  | cons b bindings ih =>
    exact ih (fun x hx => hb x (List.mem_cons_of_mem _ hx))
      (h.bindNew b.1 (hb b List.mem_cons_self))

/-- No builtin is a closure. -/
theorem Builtin.carries_bindings (processId : String) :
    ∀ b ∈ Builtin.bindings processId, ∀ P, b.2.Carries P := by
  intro b hb P
  rcases List.mem_append.mp hb with hb | hb
  · obtain ⟨builtin, -, rfl⟩ := List.mem_map.mp hb
    exact .builtin
  · simp only [List.mem_cons, List.not_mem_nil, or_false] at hb
    rcases hb with rfl | rfl | rfl
    · exact .bool
    · exact .bool
    · exact .text

/-- **A session starts soundly.** -/
theorem sound_start {library : Library} {environment : Environment} {files : FileTree}
    {processId : String} :
    (Session.start library environment files processId).Sound early := by
  -- the builtins are bound first, in scope 0; the globals are scope 1
  have empty : Constants ⟨0⟩ (Store.empty.newScope []).2 := by
    refine ⟨Nat.zero_lt_one, fun name c hc => ?_, fun c cell hc => nomatch hc⟩
    exact nomatch hc
  have constants := empty.bindConstants (Builtin.carries_bindings processId)
  obtain ⟨s₀, hs, hstart⟩ := Session.start_eq library environment files processId
  rw [← hs] at constants
  rw [hstart]
  have size : (s₀.newScope []).2.scopes.size = s₀.scopes.size + 1 := Array.size_push ..
  exact {
    inside := fun scope hm => by
      rw [List.mem_singleton.mp hm]
      exact size ▸ Nat.lt_succ_self _
    sealed := fun hm => by
      have h0 : 0 = s₀.scopes.size := congrArg ScopeId.index (List.mem_singleton.mp hm)
      exact absurd constants.known (h0 ▸ Nat.lt_irrefl _)
    known := size ▸ Nat.zero_lt_succ _
    names := rfl
    constant := fun name c hc => by
      refine constants.found name c ?_
      change Table.find? ((s₀.newScope []).2.scope ⟨0⟩) name = some c at hc
      rwa [Store.scope_newScope_of_lt _ _ constants.known] at hc
    cells := fun c cell hc => constants.cells c cell hc _
    queues := fun i q hq => nomatch hq
    faults := fun f hf => nomatch hf }

/-! ## One step -/

/-- What a unit was read as, and compiled from. -/
theorem compile_ok {source : Source} {op : Operation} (h : s.compile source = .ok op) :
    ∃ chunk, readChunk source.code = .ok chunk ∧
      compileUnit (s.world.store.names s.setting.builtins) (s.world.store.names s.globals) chunk =
        .ok op := by
  unfold compile at h
  split at h
  · exact nomatch h
  · exact nomatch h
  · next chunk hread =>
    refine ⟨chunk, hread, ?_⟩
    cases hc : compileUnit (s.world.store.names s.setting.builtins)
        (s.world.store.names s.globals) chunk with
    | error e => rw [hc] at h; exact nomatch h
    | ok made => rw [hc] at h; cases h; rfl

/-- The world in which a unit runs: it has a fresh scope, which is the one above the globals. -/
def entered (s : Session) : World := { s.world with store := (s.world.store.newScope []).2 }

theorem executeBy_state (r : Runner) (op : Operation) (source : Source) (ports : Ports) :
    (s.executeBy r op source ports).2 = { s with world := (r.operation op
      (s.frame source ports ⟨s.world.store.scopes.size⟩) s.entered).2 } := by
  unfold executeBy
  dsimp only
  split
  · next outcome w hrun =>
    have hw : w = (r.operation op
        (s.frame source ports ⟨s.world.store.scopes.size⟩) s.entered).2 :=
      (congrArg Prod.snd hrun).symm
    rw [← hw]
    split <;> rfl

theorem execute_state (fuel : Nat) (op : Operation) (source : Source) (ports : Ports) :
    (s.execute fuel op source ports).2 = { s with world := ((Runner.ofFuel fuel).operation op
      (s.frame source ports ⟨s.world.store.scopes.size⟩) s.entered).2 } :=
  executeBy_state (.ofFuel fuel) op source ports

/-- Evaluating a unit either changes nothing, since it is no program, or runs code at home in the globals. -/
theorem evaluate_state (s : Session) (fuel : Nat) (source : Source) (ports : Ports) :
    (s.evaluate fuel source ports).2 = s ∨
      ∃ e w, Evolves e (some s.globals) [] s.entered w ∧
        (s.evaluate fuel source ports).2 = { s with world := w } := by
  rw [evaluate_run]
  split
  · exact .inl rfl
  · exact .inl rfl
  · next op _ =>
    right
    have run := (Runner.ofFuel_contained fuel).operation op
      (s.frame source ports ⟨s.world.store.scopes.size⟩) s.entered
    exact ⟨_, _, run, execute_state fuel op source ports⟩

/-- The world in which a unit starts has one scope more. -/
theorem grows_entered (home : Option ScopeId) (s : Session) : Grows home s.world s.entered :=
  .newScope home s.world []

/-- A unit leaves all but the globals as it was. -/
theorem grows_evaluate (s : Session) (fuel : Nat) (source : Source) (ports : Ports) :
    Grows (some s.globals) s.world (s.evaluate fuel source ports).2.world := by
  obtain heq | ⟨e, w, evolves, heq⟩ := evaluate_state s fuel source ports
  · rw [heq]
    exact .refl _ _
  · rw [heq]
    exact (grows_entered _ s).trans evolves.grows

/-- **The frame of a unit covers the table** that the unit is compiled with. -/
theorem Sound.covers (h : s.Sound early) (source : Source) (ports : Ports) :
    (s.frame source ports ⟨s.world.store.scopes.size⟩).Covers (s.ground early) [s.globals]
      (.start (s.world.store.names s.setting.builtins) (s.world.store.names s.globals))
      s.entered := by
  have inside : s.globals.index < s.world.store.scopes.size := h.inside _ List.mem_cons_self
  have size : s.entered.store.scopes.size = s.world.store.scopes.size + 1 := Array.size_push ..
  -- the globals are the local scope of the unit, and there is nothing above them
  exact {
    home := List.mem_cons_self
    known := size ▸ Nat.lt_succ_of_lt inside
    sealed := fun hm => by
      rw [← List.mem_singleton.mp hm] at inside
      exact Nat.lt_irrefl _ inside
    aboveKnown := size ▸ Nat.lt_succ_self _
    builtins := rfl
    names := rfl
    inner := fun name hn => by
      refine .inl ?_
      show (Table.find? (s.entered.store.scope s.globals) name).isSome
      rw [entered, Store.scope_newScope_of_lt _ _ inside]
      exact Table.mem_names.mp hn
    outer := fun name hn => nomatch hn }

/-- A unit keeps the session sound, however it ends. -/
theorem Sound.evaluate {fuel : Nat} {source : Source} {ports : Ports} (h : s.Sound early)
    (orderly : ∀ op, s.compile source = .ok op → op.Orderly early)
    (obeyed : (s.ground early).Obeyed (s.evaluate fuel source ports).2.world.journal) :
    (s.evaluate fuel source ports).2.Sound early := by
  rw [Session.evaluate_run] at obeyed ⊢
  split at obeyed
  -- a unit that is not read or does not compile changes nothing
  · exact h
  · exact h
  · next op hop =>
    obtain ⟨chunk, -, hchunk⟩ := compile_ok hop
    obtain ⟨t', hscoped⟩ := compileUnit_scoped hchunk (orderly op hop)
    rw [execute_state] at obeyed ⊢
    have triple : Triple (s.ground early) [s.globals] (some s.globals) _
        ((Runner.ofFuel fuel).operation op
          (s.frame source ports ⟨s.world.store.scopes.size⟩)) _ :=
      (Runner.ofFuel_faithful (s.ground early) fuel).operation hscoped (.inl rfl)
    exact .mapWorld (triple.keeps s.entered obeyed (h.newScope []) (h.covers source ports)).1

/-- A global variable of the host keeps it sound, if the host makes no closures of its own. -/
theorem Sound.bindGlobal (h : s.Sound early) (name : String) {v : Value}
    (known : ∀ P, s.Carries P → v.Carries P) : (s.bindGlobal name v).Sound early :=
  .mapWorld ((h.newCell (known _ h.carries)).bind List.mem_cons_self name _)

/-! ## All states -/

/-- **All states of a session are sound**, if the modules that it loaded are orderly like its units. -/
theorem Reached.sound (h : s.Reached early) (obeyed : (s.ground early).Obeyed s.world.journal) :
    s.Sound early := by
  induction h with
  | start => exact sound_start
  | @unit s fuel source ports _ orderly ih =>
    -- what the modules ran before the unit is still in the journal after it
    obtain ⟨events, he⟩ := (grows_evaluate s fuel source ports).journal
    have before : (s.ground early).Obeyed s.world.journal := fun path code hrun =>
      obeyed path code (he ▸ List.mem_append_right events hrun)
    exact (ih before).evaluate orderly obeyed
  | global _ known ih => exact (ih obeyed).bindGlobal _ known
  | host _ known ih => exact .mapWorld { ih obeyed with queues := known _ (ih obeyed).carries }

/-- The name is one of a builtin, and code of the session takes it early. -/
def TakesEarly (early : String → Prop) (s : Session) (name : String) : Prop :=
  s.world.store.Binds s.setting.builtins name ∧ early name

/-- **The scope check vouches** for the variable `ns:name`. -/
def Vouches (early : String → Prop) (s : Session) (ns name : String) : Prop :=
  ns = "" ∨ ns = "up" ∧ ¬s.TakesEarly early name ∨ ns = "builtin" ∨ ns = "E" ∨
    ns = "e" ∧ name.toList.getLast? = some '~'

/-- A name that is vouched for is not open. -/
theorem Vouches.not_open {ns name : String} (h : s.Vouches early ns name) :
    ¬(s.ground early).Open ns name := by
  intro isOpen
  rcases h with plain | ⟨up, notTaken⟩ | builtin | environment | ⟨external, command⟩
  · exact isOpen.qualified plain
  · obtain ⟨hname, taken⟩ := isOpen.above up
    exact notTaken ⟨Table.mem_names.mp hname, taken⟩
  · exact isOpen.notBuiltin builtin
  · exact isOpen.notEnvironment environment
  · exact isOpen.command external command

/-- No report is about a variable that the scope check vouches for. -/
theorem Sound.not_vouched (h : s.Sound early) {f : Fault} (raised : .raised f ∈ s.world.journal)
    {text : String}
    (about : f = .variableNotFound (qualifiedName (Reference.ofText text).ns
        (Reference.ofText text).name) ∨
      f = .missingBase (qualifiedName (Reference.ofText text).ns (Reference.ofText text).name)) :
    ¬s.Vouches early (Reference.ofText text).ns (Reference.ofText text).name := by
  intro vouched
  -- a report shows the name, and no two variables look the same when shown
  obtain ⟨other, hshown, isOpen⟩ : ∃ other,
      qualifiedName (Reference.ofText text).ns (Reference.ofText text).name =
        qualifiedName (Reference.ofText other).ns (Reference.ofText other).name ∧
      (s.ground early).Open (Reference.ofText other).ns (Reference.ofText other).name := by
    have expected := h.faults f raised
    rcases about with rfl | rfl <;> exact expected
  obtain ⟨hns, hname⟩ := Reference.eq_of_qualifiedName_eq hshown
  rw [← hns, ← hname] at isOpen
  exact vouched.not_open isOpen

/-- The session after one more unit, which is read from a terminal. -/
def after (s : Session) (code : String) : Session :=
  (s.evaluate 60 (.interactive code) .standard).2

/-- A session that has run nothing, with no files around it. -/
def bare : Session := .start ⟨none, []⟩ ⟨[]⟩ default "1"

/-- A run that has ended well, as it is evaluated. -/
theorem ran_of_isOk {outcome : Except Stop Unit × World} (h : outcome.1.isOk = true) :
    outcome = (.ok (), outcome.2) := by
  rcases outcome with ⟨stop | a, w⟩
  · exact nomatch h
  · rfl

/-- The fault that an event reports. -/
def faultOf : Event → Option Fault
  | .raised f => some f
  | _ => none

theorem journal_eq {journal : List Event} {faults : List Fault}
    (h : journal.map faultOf = faults.map some) : journal = faults.map .raised := by
  induction journal generalizing faults with
  | nil =>
    cases faults with
    | nil => rfl
    | cons f faults => exact nomatch h
  | cons e journal ih =>
    cases faults with
    | nil => exact nomatch h
    | cons f faults =>
      obtain ⟨hf, hrest⟩ := List.cons.inj h
      cases e with
      | raised g =>
        cases hf
        exact congrArg _ (ih hrest)
      | running path code => exact nomatch hf
      | loaded path => exact nomatch hf
      | failed path => exact nomatch hf
      | imported path ns => exact nomatch hf

/-- Where all that happened is faults, no module ran. -/
theorem noModules {faults : List Fault} (h : s.world.journal.map faultOf = faults.map some)
    (path : String) (code : Operation) (ran : .running path code ∈ s.world.journal) :
    code.Orderly early := by
  rw [journal_eq h] at ran
  obtain ⟨f, -, heq⟩ := List.mem_map.mp ran
  exact nomatch heq

/-- The block `{ put $ns:x }` is orderly. -/
theorem orderly_putBlock {ref : Reference} {inner call chunk lambda outer : Span} :
    Operation.Orderly early (.call (.value (.lambda ⟨[], none, false,
      .chunk [.call (.name "put") [.reference ref inner] call] chunk, lambda⟩)) [] outer) := by
  refine .call (fun e he => ?_) (List.forall_mem_nil _)
  cases he
  refine .lambda (.chunk fun op hop => ?_)
  rw [List.mem_singleton.mp hop]
  refine .call (fun _ named => by cases named) fun e he => ?_
  rw [List.mem_singleton.mp he]
  exact .reference

/-- **Variables are found.**  However closures are stored, passed around and called later: a reference
`$x` never fails to find its variable, and neither does `$up:x`, unless `x` is a builtin that is taken
early somewhere in the session. -/
theorem reference_found (reached : s.Reached early)
    (modules : ∀ path code, .running path code ∈ s.world.journal → code.Orderly early)
    (text : String) (visible : (Reference.ofText text).ns = "" ∨
      (Reference.ofText text).ns = "up" ∧ ¬s.TakesEarly early (Reference.ofText text).name) :
    .raised (.variableNotFound (qualifiedName (Reference.ofText text).ns
      (Reference.ofText text).name)) ∉ s.world.journal := fun raised =>
  (reached.sound modules).not_vouched raised (.inl rfl) (visible.imp_right .inl)

/-- In `x = a; { put $up:x }`, where nothing is taken early. -/
theorem reference_found_above :
    let s := bare.after "x = a; \x7b put $up:x \x7d"
    s.Reached (fun _ => False) ∧ .raised (.variableNotFound "up:x") ∉ s.world.journal := by
  intro s
  have reached : s.Reached (fun _ => False) := by
    refine .unit .start fun op h => ?_
    cbv at h
    cases h
    refine .chunk fun op hop => ?_
    simp only [List.mem_cons, List.not_mem_nil, or_false] at hop
    rcases hop with rfl | rfl
    · refine .assign (List.forall_mem_nil _) (fun t ht => ?_) fun e he => ?_
      · rw [List.mem_singleton.mp ht]
        exact List.forall_mem_nil _
      · rw [List.mem_singleton.mp he]
        exact .literal
    · exact orderly_putBlock
  have quiet : s.world.journal.map faultOf = [].map some := by decide +kernel
  exact ⟨reached, reference_found reached (noModules quiet) "up:x"
    (.inr ⟨by decide, fun taken => taken.2⟩)⟩

/-- The name of a builtin may be taken early: in `for true in [] { }; { put $up:true }` no variable
`true` is ever made, and the one above is not found, although the code is orderly. -/
theorem reference_missing_above :
    let s := bare.after "for true in [] \x7b \x7d; \x7b put $up:true \x7d"
    s.Reached (fun _ => True) ∧
      (∀ path code, .running path code ∈ s.world.journal → code.Orderly fun _ => True) ∧
      .raised (.variableNotFound "up:true") ∈ s.world.journal := by
  intro s
  have reached : s.Reached (fun _ => True) := by
    refine .unit .start fun op h => ?_
    cbv at h
    cases h
    refine .chunk fun op hop => ?_
    simp only [List.mem_cons, List.not_mem_nil, or_false] at hop
    rcases hop with rfl | rfl
    · refine .forLoop (fun _ _ _ _ => trivial) (fun t ht => ?_) (.list (List.forall_mem_nil _)) (.chunk (List.forall_mem_nil _))
        fun _ none => absurd none (Option.not_mem_none _)
      rw [List.mem_singleton.mp ht]
      exact List.forall_mem_nil _
    · exact orderly_putBlock
  have faults : s.world.journal.map faultOf = [.variableNotFound "up:true"].map some := by
    decide +kernel
  refine ⟨reached, noModules faults, ?_⟩
  rw [journal_eq faults]
  exact List.mem_singleton.mpr rfl

/-- **The base of a target with brackets is there**, for an assignment and for `del`, if the scope check
vouches for it. -/
theorem base_found (reached : s.Reached early)
    (modules : ∀ path code, .running path code ∈ s.world.journal → code.Orderly early)
    (text : String)
    (vouched : s.Vouches early (Reference.ofText text).ns (Reference.ofText text).name) :
    .raised (.missingBase (qualifiedName (Reference.ofText text).ns
      (Reference.ofText text).name)) ∉ s.world.journal := fun raised =>
  (reached.sound modules).not_vouched raised (.inr rfl) vouched

/-- In `x = [&]; x[k] = 1`. -/
theorem base_found_plain :
    let s := bare.after "x = [&]; x[k] = 1"
    s.Reached (fun _ => False) ∧ .raised (.missingBase "x") ∉ s.world.journal := by
  intro s
  have reached : s.Reached (fun _ => False) := by
    refine .unit .start fun op h => ?_
    cbv at h
    cases h
    refine .chunk fun op hop => ?_
    simp only [List.mem_cons, List.not_mem_nil, or_false] at hop
    rcases hop with rfl | rfl
    · refine .assign (List.forall_mem_nil _) (fun t ht => ?_) fun e he => ?_
      · rw [List.mem_singleton.mp ht]
        exact List.forall_mem_nil _
      · rw [List.mem_singleton.mp he]
        exact .map (List.forall_mem_nil _) (List.forall_mem_nil _)
    · refine .assign (List.forall_mem_nil _) (fun t ht e he => ?_) fun e he => ?_
      · rw [List.mem_singleton.mp ht] at he
        rw [List.mem_singleton.mp he]
        exact .literal
      · rw [List.mem_singleton.mp he]
        exact .literal
  have quiet : s.world.journal.map faultOf = [].map some := by decide +kernel
  exact ⟨reached, base_found reached (noModules quiet) "x" (.inl rfl)⟩

/-- The check lets every name of the system through, and only those of commands are ever there: in
`e:x[0] = 1` the base is missing. -/
theorem base_missing_in_system :
    (bare.compile (.interactive "e:x[0] = 1")).isOk = true ∧
      .raised (.missingBase "e:x") ∈ (bare.after "e:x[0] = 1").world.journal := by
  have faults : (bare.after "e:x[0] = 1").world.journal.map faultOf =
      [.missingBase "e:x"].map some := by decide +kernel
  refine ⟨by decide +kernel, ?_⟩
  rw [journal_eq faults]
  exact List.mem_singleton.mpr rfl

end Session

end ValueShell
