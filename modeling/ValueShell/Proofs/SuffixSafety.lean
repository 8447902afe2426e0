/-
  Names with a suffix keep their promise.

  A session that binds everything by running code, in any of its states: what is bound under a name that
  ends in `~` is a function, and what is bound under a name that ends in `:` is a namespace, in every scope
  there is.  One thing must not occur in its code, a lambda that takes the rest of its arguments under
  a name with a suffix, since it binds the list of them whatever the name promises (`rest_breaks_promise`).

  The proof compares each run with ITSELF.  The matching says that every number stands for itself, that
  no scope number is too high, and that no lambda takes its rest so.  A world that is like itself in this way
  keeps all promises, and a run that agrees with itself leads from such worlds to such worlds.
-/
import ValueShell.Proofs.SelfLikeness

namespace ValueShell

open Eval

/-! ## The states of a session -/

/-- No lambda in the code takes the rest of its arguments under a name with a suffix. -/
def Operation.TakesPlainRests (op : Operation) : Prop :=
  (Code.operation op).Each Lambda.TakesPlainRest

namespace Session

/-- **The states of a session** that binds everything by running code, where no unit takes the rest of its
arguments under a name with a suffix.  What the host puts into the streams refers to nothing. -/
inductive SelfMade : Session → Prop
  | start {library : Library} {environment : Environment} {files : FileTree} {processId : String} :
      SelfMade (.start library environment files processId)
  | unit {s : Session} {fuel : Nat} {source : Source} {ports : Ports} (before : SelfMade s)
      (plain : ∀ op, s.compile source = .ok op → op.TakesPlainRests) :
      SelfMade (s.evaluate fuel source ports).2
  | host {s : Session} {streams : Streams} {environment : Environment} {files : FileTree}
      (before : SelfMade s) (known : ∀ v, streams.Holds v → v.Closed ∨ s.world.streams.Holds v) :
      SelfMade (s.mapWorld fun w => { w with streams, environment, files })

/-- The world at a moment in the middle of a unit, the one at which the watcher ends it. -/
def halfway (s : Session) (stop : Store → Bool) (fuel : Nat) (op : Operation) (source : Source)
    (ports : Ports) : World :=
  ((Runner.watched stop fuel).operation op (s.frame source ports ⟨s.world.store.scopes.size⟩)
    s.entered).2

/-- **The worlds that such a session passes through**, between its units and in the middle of one. -/
inductive Passes : World → Prop
  | between {s : Session} (h : s.SelfMade) : Passes s.world
  | within {s : Session} (h : s.SelfMade) {source : Source} {op : Operation}
      (compiles : s.compile source = .ok op) (plain : op.TakesPlainRests) (stop : Store → Bool)
      (fuel : Nat) (ports : Ports) : Passes (s.halfway stop fuel op source ports)

variable {bound : Nat} {s : Session}

/-! ### Whole runs -/

theorem SelfMade.globals (h : s.SelfMade) : s.globals.index < s.world.store.scopes.size := by
  induction h with
  | start => exact globals_start
  | @unit s fuel source ports _ _ ih =>
    have grown := (grows_evaluate s fuel source ports).scopes
    have same : (s.evaluate fuel source ports).2.globals = s.globals := by
      obtain heq | ⟨e, w, -, heq⟩ := evaluate_state s fuel source ports
      · rw [heq]
      · rw [heq]
    rw [same]
    exact Nat.lt_of_lt_of_le ih grown
  | host _ _ ih => exact ih

/-- **A run leads from worlds that are like themselves to such worlds**, wherever it is ended. -/
theorem halfway_itself (h : s.world.Alike (.itself bound True) s.world) (hs : s.globals.index < bound)
    {op : Operation} (plain : op.TakesPlainRests) (stop : Store → Bool) (fuel : Nat)
    (source : Source) (ports : Ports)
    (within : (Matching.itself bound True).Within (s.halfway stop fuel op source ports)) :
    (s.halfway stop fuel op source ports).Alike (.itself bound True)
      (s.halfway stop fuel op source ports) := by
  have runner : (Runner.watched stop fuel).Alike (.itself bound True) (Runner.watched stop fuel) :=
    Runner.watched_alike (fun st st' same => congrArg stop same.eq) fuel
  exact operation_itself h hs (fun l inside _ => plain l inside) runner source ports rfl within

/-- Where the modules that ran take no rest under a name with a suffix. -/
theorem within_itself {w : World} (size : w.store.scopes.size ≤ bound)
    (modules : ∀ path code, .running path code ∈ w.journal → code.TakesPlainRests) :
    (Matching.itself bound True).Within w :=
  ⟨size, fun path code ran l inside _ => modules path code ran l inside⟩

theorem SelfMade.itself (h : s.SelfMade) (size : s.world.store.scopes.size ≤ bound)
    (modules : ∀ path code, .running path code ∈ s.world.journal → code.TakesPlainRests) :
    s.world.Alike (.itself bound True) s.world := by
  induction h with
  | start => exact alike_start
  | @unit s fuel source ports before plain ih =>
    have grows := grows_evaluate s fuel source ports
    obtain ⟨events, hevents⟩ := grows.journal
    have inside : s.globals.index < bound :=
      Nat.lt_of_lt_of_le before.globals (Nat.le_trans grows.scopes size)
    have start := ih (Nat.le_trans grows.scopes size) fun path code ran =>
      modules path code (hevents ▸ List.mem_append_right events ran)
    exact evaluate_itself start inside (fun op compiles l inside _ => plain op compiles l inside)
      (within_itself size modules)
  | @host s streams environment files _ known ih =>
    have before := ih size modules
    refine { before with streams := ?_, environment := rfl, files := rfl }
    refine Streams.alike_itself fun v held => ?_
    rcases known v held with data | old
    · exact data.alike
    · exact before.streams.itself old

end Session

/-! ## What a name stands for -/

namespace Store.Fits

variable {st : Store} {f : Frame} {ns name : String}

theorem find? (h : st.Fits) {scope : ScopeId} {c : CellId} (found : st.find? scope name = some c) :
    st.Honours name c := h scope _ (Table.mem_of_find? found)

theorem findPlain? (h : st.Fits) {c : CellId} (found : f.findPlain? st name = some c) :
    st.Honours name c := by
  unfold Frame.findPlain? at found
  rcases Option.or_eq_some_iff.mp found with found | ⟨-, found⟩
  · rcases Option.or_eq_some_iff.mp found with found | ⟨-, found⟩
    · exact h.find? found
    · exact h.find? found
  · exact h.find? found

/-- **What a name with the suffix of functions stands for** is a function, but in the environment. -/
theorem function (h : st.Fits) {base : String} {p : Place}
    (found : f.find? st ns (base ++ "~") = some p) :
    ns = "E" ∨ (∃ callable, p = .transient (.function callable)) ∨
      ∃ c, p = .cell c ∧ st.Honours (base ++ "~") c := by
  unfold Frame.find? at found
  split at found
  · obtain ⟨c, hc, rfl⟩ := Option.map_eq_some_iff.mp found
    exact .inr (.inr ⟨c, rfl, h.findPlain? hc⟩)
  · obtain ⟨c, hc, rfl⟩ := Option.map_eq_some_iff.mp found
    exact .inr (.inr ⟨c, rfl, h.find? hc⟩)
  · obtain ⟨c, hc, rfl⟩ := Option.map_eq_some_iff.mp found
    exact .inr (.inr ⟨c, rfl, h.find? hc⟩)
  · obtain ⟨c, hc, rfl⟩ := Option.map_eq_some_iff.mp found
    exact .inr (.inr ⟨c, rfl, h.find? hc⟩)
  · exact .inl rfl
  · split at found
    · cases found
      exact .inr (.inl ⟨_, rfl⟩)
    · exact nomatch found
  · obtain ⟨scope, -, found⟩ := Option.bind_eq_some_iff.mp found
    obtain ⟨c, hc, rfl⟩ := Option.map_eq_some_iff.mp found
    exact .inr (.inr ⟨c, rfl, h.find? hc⟩)

end Store.Fits

namespace Store.Honours

variable {st : Store} {base : String} {c : CellId}

/-- A promise that is kept, of the value that is read. -/
theorem read {name : String} {k : Constraint} (h : st.Honours name c)
    (hk : Constraint.forName? name = some k) : k.check (st.read c) = .ok () := by
  obtain ⟨cell, hc, checked, -⟩ := h k hk
  unfold Store.read
  rw [hc]
  exact checked

theorem isFunction (h : st.Honours (base ++ "~") c) : ∃ callable, st.read c = .function callable := by
  have checked := h.read (Constraint.forName?_function base)
  cases hv : st.read c with
  | function callable => exact ⟨callable, rfl⟩
  | _ =>
    rw [hv] at checked
    exact nomatch checked

theorem isNamespace (h : st.Honours (base ++ ":") c) : ∃ ns, st.read c = .ns ns := by
  have checked := h.read (Constraint.forName?_namespace base)
  cases hv : st.read c with
  | ns scope => exact ⟨scope, rfl⟩
  | _ =>
    rw [hv] at checked
    exact nomatch checked

end Store.Honours

namespace Session

/-- In the worlds that a session passes through, all names keep their promises. -/
theorem Passes.fits {w : World} (passes : Passes w)
    (modules : ∀ path code, .running path code ∈ w.journal → code.TakesPlainRests) :
    w.store.Fits := by
  cases passes with
  | between h => exact (h.itself (Nat.le_refl _) modules).store.fits trivial
  | @within s h source op compiles plain stop fuel ports =>
    have grows := ((Runner.watched_contained stop fuel).operation op
      (s.frame source ports ⟨s.world.store.scopes.size⟩) s.entered).grows
    have whole : Grows (some s.globals) s.world (s.halfway stop fuel op source ports) :=
      (grows_entered _ s).trans grows
    obtain ⟨events, hevents⟩ := whole.journal
    have before : s.world.Alike (.itself _ True) s.world := h.itself whole.scopes fun path code ran =>
      modules path code (hevents ▸ List.mem_append_right events ran)
    have after := halfway_itself before (Nat.lt_of_lt_of_le h.globals whole.scopes) plain stop fuel
      source ports (within_itself (Nat.le_refl _) modules)
    exact after.store.fits trivial

/-- **Names with a suffix keep their promise** in every world that the session passes through: in every
scope, what is bound under a name that ends in `~` is a function, and what is bound under a name that ends in
`:` is a namespace.  So the name of a command that is bound never turns out to be no function, except
through the environment. -/
theorem suffixes_honoured {w : World} (passes : Passes w)
    (modules : ∀ path code, .running path code ∈ w.journal → code.TakesPlainRests) :
    (∀ (scope : ScopeId) (base : String) (c : CellId),
      ((base ++ "~", c) ∈ w.store.scope scope → ∃ callable, w.store.read c = .function callable) ∧
      ((base ++ ":", c) ∈ w.store.scope scope → ∃ ns, w.store.read c = .ns ns)) ∧
    ∀ (f : Frame) (name : String), (splitCommandName name).1 ≠ "E" →
      (findCommand f name w).1 ≠ .error (.unwind (.ofFault .shouldBeFunction)) := by
  have fits := passes.fits modules
  refine ⟨fun scope base c => ⟨fun bound => ?_, fun bound => ?_⟩, fun f name hns => ?_⟩
  · exact (fits scope _ bound).isFunction
  · exact (fits scope _ bound).isNamespace
  · unfold findCommand
    rcases hsplit : splitCommandName name with ⟨ns, base⟩
    rw [hsplit] at hns
    show ((get >>= _ : Eval Callable) w).1 ≠ _
    rw [get_bind_run]
    intro ended
    cases hfound : f.find? w.store ns (base ++ "~") with
    | none =>
      rw [hfound] at ended
      cases ended
    | some p =>
      rw [hfound] at ended
      obtain rfl | ⟨callable, rfl⟩ | ⟨c, rfl, honoured⟩ := fits.function hfound
      · exact absurd rfl hns
      · cases ended
      · obtain ⟨callable, hc⟩ := honoured.isFunction
        change w.valueAt (.cell c) = _ at hc
        dsimp only at ended
        rw [hc] at ended
        cases ended

/-- In `[f~]{ f } $nop~`, where the parameter `f~` is a function that is called by its name. -/
theorem suffixes_honoured_in_call :
    let s := bare.after "[f~]\x7b f \x7d $nop~"
    Passes s.world ∧ ("f~", ⟨28⟩) ∈ s.world.store.scope ⟨4⟩ ∧
      ∃ callable, s.world.store.read ⟨28⟩ = .function callable := by
  intro s
  have made : s.SelfMade := by
    refine .unit .start fun op h => ?_
    cbv at h
    cases h
    refine Code.each_operation (List.forall_mem_singleton.mpr ?_)
    refine Code.each_operation (List.forall_mem_cons.mpr ⟨?_, List.forall_mem_singleton.mpr ?_⟩)
    · refine Code.each_expr (List.forall_mem_singleton.mpr (Code.each_lambda (fun _ rest => by cases rest) ?_))
      refine Code.each_operation (List.forall_mem_singleton.mpr ?_)
      exact Code.each_operation (List.forall_mem_nil _)
    · exact Code.each_expr (List.forall_mem_nil _)
  have quiet : s.world.journal.map faultOf = [].map some := by decide +kernel
  have found : s.world.store.find? ⟨4⟩ "f~" = some ⟨28⟩ := by decide +kernel
  have member := Table.mem_of_find? found
  have modules : ∀ path code, .running path code ∈ s.world.journal → code.TakesPlainRests := by
    intro path code ran
    rw [journal_eq quiet] at ran
    cases ran
  exact ⟨.between made, member, ((suffixes_honoured (.between made) modules).1 ⟨4⟩ "f" ⟨28⟩).1 member⟩

/-- **A rest parameter breaks the promise**: in `[@f~]{ f } a` the name `f~` is bound to a list, and the
command `f` turns out to be no function. -/
theorem rest_breaks_promise :
    let s := bare.after "[@f~]\x7b f \x7d a"
    ("f~", ⟨28⟩) ∈ s.world.store.scope ⟨4⟩ ∧ (s.world.store.read ⟨28⟩).kind = "list" ∧
      .raised .shouldBeFunction ∈ s.world.journal := by
  intro s
  have found : s.world.store.find? ⟨4⟩ "f~" = some ⟨28⟩ := by decide +kernel
  have faults : s.world.journal.map faultOf = [.shouldBeFunction].map some := by decide +kernel
  refine ⟨Table.mem_of_find? found, by decide +kernel, ?_⟩
  rw [journal_eq faults]
  exact List.mem_singleton.mpr rfl

end Session

end ValueShell
