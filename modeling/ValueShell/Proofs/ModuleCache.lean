/-
  The discipline of the module cache, over whole runs.

  Loads nest: the code of a module imports others, from functions, loops, captures and `try` bodies,
  and each of them can fail at any point.  Still, whoever runs an operation finds the cache in order
  afterwards: what was being loaded is still being loaded, what was loaded is still loaded with the
  same namespace, and a load that failed has left no entry behind (`Settles`).  The proof never looks at
  an operation.  It is an induction over `Evolves`, whose only interesting cases are the two ways in
  which a load ends.

  The states of a session are those of `Reaches`.  In all of them the entries that say LOADING are
  exactly the modules the running code is inside of.  This gives the rest: no import waits for a load
  that cannot end, and the code of a module that was loaded once never runs again.
-/
import ValueShell.Proofs.Evaluation
import ValueShell.Proofs.Growth

namespace ValueShell

namespace World

/-- The module at a path is being loaded. -/
def IsLoading (w : World) (path : String) : Prop :=
  ∃ ns waiting, Table.find? w.modules path = some (.loading ns waiting)

/-- The module at a path is loaded, and `ns` is its namespace. -/
def HasLoaded (w : World) (path : String) (ns : ScopeId) : Prop :=
  Table.find? w.modules path = some (.loaded ns)

/-- Nothing is known of a module at a path. -/
def HasNoEntry (w : World) (path : String) : Prop := Table.find? w.modules path = none

end World

/-! ## The cache after a run -/

/-- **The cache after a run**, compared with the cache before. -/
structure Settles (w w' : World) : Prop where
  /-- the entries of running loads are as they were -/
  loading : ∀ path ns waiting, Table.find? w'.modules path = some (.loading ns waiting) ↔
    Table.find? w.modules path = some (.loading ns waiting)
  loaded : ∀ path ns, w.HasLoaded path ns → w'.HasLoaded path ns
  /-- a path has an entry that it did not have before only if its load ended well meanwhile -/
  failed : ∃ events, w'.journal = events ++ w.journal ∧
    ∀ path, w.HasNoEntry path ∨ .failed path ∈ events → .loaded path ∉ events →
      w'.HasNoEntry path

namespace Settles

variable {w w' w'' : World}

/-- Nothing happens to the cache as long as nothing is loaded. -/
theorem ofModules (hm : w'.modules = w.modules) (events : List Event)
    (hj : w'.journal = events ++ w.journal) (quiet : ∀ path, .failed path ∉ events) :
    Settles w w' := by
  refine ⟨fun _ _ _ => by rw [hm], fun path ns h => ?_, events, hj, fun path h _ => ?_⟩
  · rwa [World.HasLoaded, hm]
  · rcases h with h | h
    · rwa [World.HasNoEntry, hm]
    · exact absurd h (quiet path)

theorem trans (first : Settles w w') (later : Settles w' w'') : Settles w w'' := by
  obtain ⟨es, hes, hfailed⟩ := first.failed
  obtain ⟨es', hes', hfailed'⟩ := later.failed
  refine ⟨fun path ns waiting => (later.loading path ns waiting).trans
    (first.loading path ns waiting), fun path ns h => later.loaded path ns (first.loaded path ns h),
    es' ++ es, by rw [hes', hes, List.append_assoc], fun path h hnot => ?_⟩
  have hnot' : .loaded path ∉ es' := fun hin => hnot (List.mem_append_left _ hin)
  have hnot₁ : .loaded path ∉ es := fun hin => hnot (List.mem_append_right _ hin)
  -- a load that failed in the first run may have been tried again in the second
  rcases h with h | h
  · exact hfailed' path (.inl (hfailed path (.inl h) hnot₁)) hnot'
  · rcases List.mem_append.mp h with hin | hin
    · exact hfailed' path (.inr hin) hnot'
    · exact hfailed' path (.inl (hfailed path (.inr hin) hnot₁)) hnot'

variable {path : String}

/-- While a module is being loaded, the cache differs from before in its entry alone. -/
theorem find?_beginLoad_of_ne (w : World) {other : String} (h : path ≠ other) :
    Table.find? (w.beginLoad path).modules other = Table.find? w.modules other :=
  Table.find?_insert_of_ne _ _ h

/-- The end of a load, which settles its entry and no other: the load ended well, or the entry is
gone. -/
theorem endLoad {e : Event} (new : w.HasNoEntry path) (h : Settles (w.beginLoad path) w')
    (hj : w''.journal = e :: w'.journal)
    (hother : ∀ other, path ≠ other →
      Table.find? w''.modules other = Table.find? w'.modules other)
    (hself : ¬w''.IsLoading path)
    (hevent : e = .loaded path ∨ e = .failed path ∧ w''.HasNoEntry path) : Settles w w'' := by
  obtain ⟨events, hevents, hfailed⟩ := h.failed
  refine ⟨fun other ms waiting => ?_, fun other ms hl => ?_, e :: events, by rw [hj, hevents]; rfl,
    fun other hor hnot => ?_⟩
  · by_cases hne : path = other
    · subst hne
      rw [show Table.find? w.modules path = none from new]
      exact ⟨fun hl => absurd ⟨ms, waiting, hl⟩ hself, nofun⟩
    · rw [hother other hne, h.loading, find?_beginLoad_of_ne w hne]
  · by_cases hne : path = other
    · subst hne
      rw [World.HasLoaded, show Table.find? w.modules path = none from new] at hl
      exact nomatch hl
    · rw [World.HasLoaded, hother other hne]
      exact h.loaded other ms ((find?_beginLoad_of_ne w hne).trans hl)
  · by_cases hne : path = other
    · subst hne
      rcases hevent with rfl | ⟨-, hnone⟩
      · exact absurd List.mem_cons_self hnot
      · exact hnone
    · rw [World.HasNoEntry, hother other hne]
      refine hfailed other (hor.imp (fun hn => (find?_beginLoad_of_ne w hne).trans hn)
        fun hin => ?_) fun hin => hnot (List.mem_cons_of_mem _ hin)
      rcases List.mem_cons.mp hin with heq | hin
      · rcases hevent with rfl | ⟨rfl, -⟩
        · exact nomatch heq
        · cases heq
          exact absurd rfl hne
      · exact hin

theorem finishLoad (new : w.HasNoEntry path) (ns : ScopeId)
    (h : Settles (w.beginLoad path) w') : Settles w (w'.finishLoad path ns) := by
  refine h.endLoad new rfl (fun other hne => Table.find?_insert_of_ne _ _ hne) ?_ (.inl rfl)
  rintro ⟨ms, waiting, hl⟩
  cases (Table.find?_insert_self _ _ _).symm.trans hl

theorem abandonLoad (new : w.HasNoEntry path) (h : Settles (w.beginLoad path) w') :
    Settles w (w'.abandonLoad path) := by
  have hnone : (w'.abandonLoad path).HasNoEntry path := by
    show Table.find? (Table.erase _ _) _ = _
    rw [Table.find?_erase, if_pos rfl]
  refine h.endLoad new rfl (fun other hne => ?_) ?_ (.inr ⟨rfl, hnone⟩)
  · show Table.find? (Table.erase _ _) _ = _
    rw [Table.find?_erase, if_neg hne]
  · rintro ⟨ms, waiting, hl⟩
    cases hnone.symm.trans hl

end Settles

theorem Change.settles {home : Option ScopeId} {loading : List String} {w w' : World}
    (h : Change home loading w w') : Settles w w' := by
  cases h with
  | raise f => exact .ofModules rfl [.raised f] rfl (by simp)
  | @enter path code _ => exact .ofModules rfl [.running path code] rfl (by simp)
  | @imports path ns _ => exact .ofModules rfl [.imported path ns] rfl (by simp)
  | surroundings | newCell | newScope | newIdentity | assign | bind | unbind =>
    exact .ofModules rfl [] rfl (by simp)

/-- **A run that ends with a result, an exception or a signal** leaves the cache in order. -/
theorem Evolves.settles {e : Ending} {home : Option ScopeId} {loading : List String}
    {w w' : World} (h : Evolves e home loading w w') (he : e = .settled) : Settles w w' := by
  induction h with
  | refl w => exact .ofModules rfl [] rfl (by simp)
  | change h => exact h.settles
  | trans _ _ first later => exact (first rfl).trans (later he)
  | cut => exact nomatch he
  | stuck => exact nomatch he
  | @inside _ _ _ w _ _ ih =>
    have fresh : Settles w { w with store := (w.store.newScope []).2 } :=
      .ofModules rfl [] rfl (by simp)
    exact fresh.trans (ih he)
  | loaded new _ ih => exact .finishLoad new _ (ih rfl)
  | failed new _ ih => exact .abandonLoad new (ih rfl)
  | unsettled hne _ _ _ => exact absurd he hne

/-! ## The states of a session -/

/-- In a journal, the latest event first, no module runs after it was loaded. -/
def RunsOnce (journal : List Event) : Prop :=
  ∀ path code newer older, journal = newer ++ .loaded path :: older → .running path code ∉ newer

/-- What the journal says of the modules is true, and none of them ran after it was loaded. -/
structure Recorded (w : World) : Prop where
  loaded : ∀ path, .loaded path ∈ w.journal → ∃ ns, w.HasLoaded path ns
  once : RunsOnce w.journal

/-- **The invariant of the cache** in code that runs inside the loads of `loading`: these, and no
others, are being loaded. -/
structure Cached (loading : List String) (w : World) : Prop where
  loads : ∀ path, w.IsLoading path ↔ path ∈ loading
  recorded : Recorded w

/-- An event other than the start of a loaded module's code keeps the order of events. -/
theorem RunsOnce.cons {journal : List Event} (h : RunsOnce journal) (e : Event)
    (fresh : ∀ path code, e = .running path code → .loaded path ∉ journal) :
    RunsOnce (e :: journal) := by
  intro path code newer older heq hin
  -- either the new event is what ended the load, or it comes after that
  cases newer with
  | nil => exact nomatch hin
  | cons e' newer =>
    injection heq with he hrest
    subst he
    rcases List.mem_cons.mp hin with hrun | hin
    · refine fresh path code hrun.symm ?_
      rw [hrest]
      simp
    · exact h path code newer older hrest hin

namespace Cached

variable {loading : List String} {w w' : World} {path : String}

/-- A module that is being loaded was never loaded. -/
theorem not_loaded (h : Cached loading w) (hin : path ∈ loading) : .loaded path ∉ w.journal := by
  intro hl
  obtain ⟨ns, hns⟩ := h.recorded.loaded path hl
  obtain ⟨ms, waiting, hms⟩ := (h.loads path).mpr hin
  rw [World.HasLoaded, hms] at hns
  exact nomatch hns

/-- A change with the same cache and journal. -/
theorem congr (h : Cached loading w) (hm : w'.modules = w.modules)
    (hj : w'.journal = w.journal) : Cached loading w' := by
  refine ⟨fun path => ?_, fun path hl => ?_, ?_⟩
  · rw [World.IsLoading, hm]
    exact h.loads path
  · rw [hj] at hl
    obtain ⟨ns, hns⟩ := h.recorded.loaded path hl
    exact ⟨ns, by rwa [World.HasLoaded, hm]⟩
  · rw [hj]
    exact h.recorded.once

/-- An event that is not the end of a load. -/
theorem note (h : Cached loading w) (e : Event) (hload : ∀ path, e ≠ .loaded path)
    (fresh : ∀ path code, e = .running path code → .loaded path ∉ w.journal) :
    Cached loading (w.note e) := by
  refine ⟨h.loads, fun path hl => ?_, h.recorded.once.cons e fresh⟩
  rcases List.mem_cons.mp hl with heq | hl
  · exact absurd heq.symm (hload path)
  · exact h.recorded.loaded path hl

theorem change {home : Option ScopeId} (h : Cached loading w) (hc : Change home loading w w') :
    Cached loading w' := by
  cases hc with
  | raise f => exact h.note _ nofun nofun
  | enter code hin =>
    refine h.note _ nofun fun path code' heq => ?_
    cases heq
    exact h.not_loaded hin
  | imports _ => exact h.note _ nofun nofun
  | surroundings | newCell | newScope | newIdentity | assign | bind | unbind =>
    exact h.congr rfl rfl

/-- The module whose load begins is one more that is being loaded. -/
theorem beginLoad (h : Cached loading w) (new : w.HasNoEntry path) :
    Cached (loading ++ [path]) (w.beginLoad path) := by
  refine ⟨fun other => ?_, fun other hl => ?_, h.recorded.once⟩
  · by_cases hne : path = other
    · subst hne
      refine ⟨fun _ => by simp, fun _ => ⟨_, _, Table.find?_insert_self _ _ _⟩⟩
    · rw [World.IsLoading, Settles.find?_beginLoad_of_ne w hne, List.mem_append,
        List.mem_singleton]
      exact (h.loads other).trans ⟨.inl, fun hor => hor.resolve_right fun heq => hne heq.symm⟩
  · obtain ⟨ns, hns⟩ := h.recorded.loaded other hl
    have hne : path ≠ other := by
      rintro rfl
      rw [World.HasLoaded, show Table.find? w.modules path = none from new] at hns
      exact nomatch hns
    exact ⟨ns, (Settles.find?_beginLoad_of_ne w hne).trans hns⟩

/-- The journal after a load that ended well. -/
theorem finishLoad (h : Recorded w') (ns : ScopeId) : Recorded (w'.finishLoad path ns) := by
  refine ⟨fun other hl => ?_, h.once.cons _ nofun⟩
  by_cases hne : path = other
  · subst hne
    exact ⟨ns, Table.find?_insert_self _ _ _⟩
  · rcases List.mem_cons.mp hl with heq | hl
    · cases heq
      exact absurd rfl hne
    · obtain ⟨ms, hms⟩ := h.loaded other hl
      exact ⟨ms, (Table.find?_insert_of_ne _ _ hne).trans hms⟩

/-- The journal after a load that failed: the module was being loaded, so it is not missed. -/
theorem abandonLoad (h : Recorded w') (hload : w'.IsLoading path) :
    Recorded (w'.abandonLoad path) := by
  refine ⟨fun other hl => ?_, h.once.cons _ nofun⟩
  rcases List.mem_cons.mp hl with heq | hl
  · exact nomatch heq
  · obtain ⟨ns, hns⟩ := h.loaded other hl
    have hne : path ≠ other := by
      rintro rfl
      obtain ⟨ms, waiting, hms⟩ := hload
      rw [World.HasLoaded, hms] at hns
      exact nomatch hns
    refine ⟨ns, ?_⟩
    show Table.find? (Table.erase _ _) _ = _
    rw [Table.find?_erase, if_neg hne]
    exact hns

/-- A run that ends with a result, an exception or a signal keeps the invariant, if the journal
stays true. -/
theorem settles (h : Cached loading w) (hs : Settles w w') (hr : Recorded w') :
    Cached loading w' :=
  ⟨fun path => (exists_congr fun ns => exists_congr fun waiting =>
    hs.loading path ns waiting).trans (h.loads path), hr⟩

end Cached

/-- **Runs under the invariant**: none of them gets stuck, and the journal stays true. -/
theorem Evolves.recorded {e : Ending} {home : Option ScopeId} {loading : List String}
    {w w' : World} (h : Evolves e home loading w w') (hc : Cached loading w) :
    e ≠ .stuck ∧ Recorded w' := by
  induction h with
  | refl w => exact ⟨nofun, hc.recorded⟩
  | change h => exact ⟨nofun, (hc.change h).recorded⟩
  | trans hfirst _ first later => exact later (hc.settles (hfirst.settles rfl) (first hc).2)
  | cut w => exact ⟨nofun, hc.recorded⟩
  -- an import that waits finds a load it is no part of; under the invariant there is none
  | stuck hentry hout => exact absurd ((hc.loads _).mp ⟨_, _, hentry⟩) hout
  | inside _ ih => exact ih (hc.congr rfl rfl)
  | loaded new _ ih => exact ⟨nofun, Cached.finishLoad (ih (hc.beginLoad new)).2 _⟩
  | @failed _ _ _ _ path new hbody ih =>
    have hbegin := hc.beginLoad new
    refine ⟨nofun, Cached.abandonLoad (ih hbegin).2 ?_⟩
    obtain ⟨ns, waiting, hentry⟩ := (hbegin.loads path).mpr (by simp)
    exact ⟨ns, waiting, ((hbody.settles rfl).loading _ _ _).mpr hentry⟩
  | unsettled _ new _ ih => exact ih (hc.beginLoad new)

/-- **The states of a session**: a frame, and a world in which an operation may start in that frame.
Code evolves the world (`Runner.ofFuel_contained`) and calls move it into other frames of the same load,
so every operation that a session runs starts in one of these states. -/
inductive Reaches : Frame → World → Prop
  /-- nothing has run -/
  | start {f : Frame} {w : World} (noModules : w.modules = []) (noEvents : w.journal = [])
      (top : f.loading = []) (scope : f.localScope.index < w.store.scopes.size) : Reaches f w
  /-- after whatever ran from such a state, in any frame of the same load -/
  | later {f g : Frame} {home : Option ScopeId} {w w' : World} (before : Reaches f w)
      (run : Evolves .settled home f.loading w w') (same : g.loading = f.loading)
      (scope : g.localScope.index < w'.store.scopes.size) : Reaches g w'
  /-- the load of a module has begun -/
  | load {f g : Frame} {w : World} {path : String} (before : Reaches f w)
      (new : w.HasNoEntry path) (inner : g.loading = f.loading ++ [path])
      (scope : g.localScope.index < (w.beginLoad path).store.scopes.size) :
      Reaches g (w.beginLoad path)

namespace Reaches

variable {f : Frame} {w : World}

theorem cached (h : Reaches f w) : Cached f.loading w := by
  induction h with
  | start noModules noEvents top _ =>
    refine ⟨fun path => ?_, fun path hl => ?_, fun path code newer older heq => ?_⟩
    · rw [World.IsLoading, noModules, top]
      exact ⟨nofun, nofun⟩
    · rw [noEvents] at hl
      exact nomatch hl
    · rw [noEvents] at heq
      exact absurd heq.symm (by simp)
  | later _ run same _ ih =>
    rw [same]
    exact ih.settles (run.settles rfl) (run.recorded ih).2
  | load _ new inner _ ih =>
    rw [inner]
    exact ih.beginLoad new

theorem scope (h : Reaches f w) : f.localScope.index < w.store.scopes.size := by
  cases h with
  | start _ _ _ scope => exact scope
  | later _ _ _ scope => exact scope
  | load _ _ _ scope => exact scope

end Reaches

/-! ## Imports that fail -/

/-- A `use` that fails has bound nothing in its frame. -/
theorem useModule_failed {fuel : Nat} {name path : String} {span : Span} {f : Frame}
    {w w' : World} {u : Unwind} (scope : f.localScope.index < w.store.scopes.size)
    (run : (Runner.ofFuel fuel).operation (.useModule name path span) f w =
      (.error (.unwind u), w')) : w'.store.scope f.localScope = w.store.scope f.localScope := by
  cases fuel with
  | zero => cases run
  | succ fuel =>
    have evolves := Runner.stays_importModule (Runner.ofFuel_contained fuel) f path none w
    change Eval.located _ ((Runner.ofFuel fuel).useModule name path f) w = _ at run
    rw [Eval.located, Eval.mapStop_run, Runner.useModule, Eval.bind_run] at run
    rcases himport : (Runner.ofFuel fuel).importModule f path w with ⟨stop | ns, w₁⟩ <;>
      rw [himport] at run evolves
    · obtain ⟨-, rfl⟩ := Prod.mk.inj run
      exact evolves.grows.kept f.localScope scope (Option.some_ne_none _).symm
    · cases run

/-- **The discipline of the cache.**  Whatever operation runs in whatever state of a session, it does
not wait forever; and if it ends with a result, an exception or a signal, then the modules being
loaded are the same as before, every module loaded before is loaded with the same namespace, and a
module whose load failed meanwhile, and did not succeed meanwhile, has no entry.  A `use` that fails
leaves the local scope as it was.  In the journal, the code of no module runs after it was loaded. -/
theorem operation_keeps_cache {f : Frame} {w w' : World} {fuel : Nat} {op : Operation}
    {outcome : Except Stop Unit} (reached : Reaches f w)
    (run : (Runner.ofFuel fuel).operation op f w = (outcome, w')) :
    outcome ≠ .error .blocked ∧
      (Ending.of outcome = .settled →
        (∀ path, w'.IsLoading path ↔ w.IsLoading path) ∧
        (∀ path ns, w.HasLoaded path ns → w'.HasLoaded path ns) ∧
        ∃ events, w'.journal = events ++ w.journal ∧
          ∀ path, .failed path ∈ events → .loaded path ∉ events → w'.HasNoEntry path) ∧
      (∀ name path span u, op = .useModule name path span → outcome = .error (.unwind u) →
        w'.store.scope f.localScope = w.store.scope f.localScope) ∧
      RunsOnce w'.journal := by
  have evolves := (Runner.ofFuel_contained fuel).operation op f w
  rw [run] at evolves
  obtain ⟨notStuck, recorded⟩ := evolves.recorded reached.cached
  refine ⟨fun hb => ?_, fun settled => ?_, fun name path span u hop ho => ?_, recorded.once⟩
  · rw [hb] at notStuck
    exact notStuck rfl
  · have settles := evolves.settles settled
    obtain ⟨events, hj, hfailed⟩ := settles.failed
    exact ⟨fun path => exists_congr fun ns => exists_congr fun waiting =>
      settles.loading path ns waiting, settles.loaded, events, hj,
      fun path hin hnot => hfailed path (.inr hin) hnot⟩
  · subst hop ho
    exact useModule_failed reached.scope run

/-- At a `use` in a world with one empty scope and no library: it fails, and nothing is bound. -/
theorem operation_keeps_cache_at_failing_use :
    let f : Frame := { (default : Frame) with localScope := ⟨0⟩ }
    let w : World := { World.start default default with store := ⟨#[], #[[]], 0⟩ }
    let run := (Runner.ofFuel 2).operation (.useModule "m" "m" default) f w
    Reaches f w ∧
      run.1 = .error (.unwind (.exception ⟨.noLibrary, some (f.site default)⟩)) ∧
      run.2.store.scope f.localScope = w.store.scope f.localScope ∧ RunsOnce run.2.journal := by
  intro f w run
  have reached : Reaches f w := .start rfl rfl rfl (by decide)
  have failed : run.1 = .error (.unwind (.exception ⟨.noLibrary, some (f.site default)⟩)) := rfl
  have kept := @operation_keeps_cache f w run.2 2 (.useModule "m" "m" default) run.1 reached rfl
  exact ⟨reached, failed, kept.2.2.1 "m" "m" default _ rfl failed, kept.2.2.2⟩

end ValueShell
