/-
  One namespace for each module.

  All imports of a module share one namespace, so that what one importer changes the others see.  There
  is one exception.  An import inside an import cycle takes the namespace of a load that has not ended,
  and if that load fails, the cache forgets the namespace while the importer keeps it.  A later import
  loads the module again, into another namespace.

  This is the only exception.  `Shared` says of a world what the cache and the journal have to do with each
  other: the namespace that an import took is the one in the cache as long as no load of the module has
  failed since, and never again after that, because every load fills a namespace that was not there
  before.  It holds at the start, code keeps it, and it decides for every pair of imports whether they
  share a namespace.
-/
import ValueShell.Proofs.SessionStates

namespace ValueShell

open Eval

/-! ## What a `use` does -/

namespace Runner

variable {r : Runner} {f : Frame} {w w' : World} {target : String} {ns : ScopeId}

/-- An import that succeeds has written down which namespace it took. -/
theorem importModule_ok (run : r.importModule f target w = (.ok ns, w')) :
    ∃ path, ∃ w₁ : World, resolvePath f.source target = .ok path ∧
      w' = w₁.note (.imported path ns) := by
  cases hpath : resolvePath f.source target with
  | error e =>
    rw [importModule, hpath] at run
    exact nomatch run
  | ok path =>
    rw [importModule, hpath, ofExcept_ok, pure_bind, bind_run] at run
    rcases hfetch : r.fetchModule f path w with ⟨stop | ms, w₁⟩ <;> rw [hfetch] at run
    · exact nomatch run
    · obtain ⟨hms, hw⟩ := Prod.mk.inj run
      cases Except.ok.inj hms
      exact ⟨path, w₁, rfl, hw.symm⟩

/-- A `use` that succeeds is an import that succeeds, and a name for the namespace. -/
theorem useModule_ok {name : String} (run : r.useModule name target f w = (.ok (), w')) :
    ∃ ns w₁, r.importModule f target w = (.ok ns, w₁) ∧ w'.journal = w₁.journal ∧
      w'.store = w₁.store.bindNew f.localScope (name ++ ":")
        (.forName (name ++ ":") (.ns ns)) := by
  rw [useModule, bind_run] at run
  rcases himport : r.importModule f target w with ⟨stop | ns, w₁⟩ <;> rw [himport] at run
  · cases run
  · obtain ⟨-, rfl⟩ := Prod.mk.inj run
    exact ⟨ns, w₁, rfl, rfl, rfl⟩

end Runner

/-- A namespace bound under a name is found by the whole name. -/
theorem Frame.wholeNamespace?_bindNew {f : Frame} {s : Store}
    (known : f.localScope.index < s.scopes.size) (name : String) (ns : ScopeId) :
    f.wholeNamespace? (s.bindNew f.localScope (name ++ ":") (.forName (name ++ ":") (.ns ns)))
      name.toList = some ns := by
  have colon : String.ofList (name.toList ++ [':']) = name ++ ":" := by
    rw [String.ofList_append, String.ofList_toList]
  rw [wholeNamespace?, colon, findPlain?, Store.find?_bindNew known, Option.some_or, Option.some_or,
    Option.bind_some, Store.namespaceIn?, Store.read_bindNew]
  rfl

theorem Frame.findNamespace?_of_whole {f : Frame} {s : Store} {qualifier : List Char} {ns : ScopeId}
    (whole : f.wholeNamespace? s qualifier = some ns) : f.findNamespace? s qualifier = some ns := by
  rw [findNamespace?, whole, Option.some_or]

/-- **A `use` that succeeds** binds a namespace, which is found by the whole name, and writes down which. -/
theorem use_binds_whole {fuel : Nat} {name target : String} {span : Span} {f : Frame} {w w' : World}
    (known : f.localScope.index < w.store.scopes.size)
    (run : (Runner.ofFuel fuel).operation (.useModule name target span) f w = (.ok (), w')) :
    ∃ path ns older, resolvePath f.source target = .ok path ∧
      w'.journal = .imported path ns :: older ∧
      f.wholeNamespace? w'.store name.toList = some ns := by
  cases fuel with
  | zero => exact nomatch run
  | succ fuel =>
    have inner : (Runner.ofFuel fuel).useModule name target f w = (.ok (), w') :=
      run_ok_of_located run
    obtain ⟨ns, w₁, himport, hjournal, hstore⟩ := Runner.useModule_ok inner
    have evolves := Runner.stays_importModule (Runner.ofFuel_contained fuel) f target none w
    rw [himport] at evolves
    obtain ⟨path, w₂, hpath, rfl⟩ := Runner.importModule_ok himport
    have stillKnown := Nat.lt_of_lt_of_le known evolves.grows.scopes
    refine ⟨path, ns, w₂.journal, hpath, hjournal, ?_⟩
    rw [hstore]
    exact Frame.wholeNamespace?_bindNew stillKnown name ns

/-- So the name stands for that namespace as a qualifier. -/
theorem use_binds {fuel : Nat} {name target : String} {span : Span} {f : Frame} {w w' : World}
    (known : f.localScope.index < w.store.scopes.size)
    (run : (Runner.ofFuel fuel).operation (.useModule name target span) f w = (.ok (), w')) :
    ∃ path ns older, resolvePath f.source target = .ok path ∧
      w'.journal = .imported path ns :: older ∧
      f.findNamespace? w'.store name.toList = some ns := by
  obtain ⟨path, ns, older, hpath, hjournal, whole⟩ := use_binds_whole known run
  exact ⟨path, ns, older, hpath, hjournal, Frame.findNamespace?_of_whole whole⟩

/-! ## The cache and the journal -/

/-- In a journal, the latest event first, two imports of one module took the same namespace exactly if no
load of the module failed between them. -/
def OneNamespace (journal : List Event) : Prop :=
  ∀ path ns ns' newer between older,
    journal = newer ++ .imported path ns' :: (between ++ .imported path ns :: older) →
    (ns' = ns ↔ .failed path ∉ between)

/-- **What the cache has to do with the imports so far.** -/
structure Shared (w : World) : Prop where
  known : ∀ path ns, w.modules.namespaceOf? path = some ns → ns.index < w.store.scopes.size
  taken : ∀ path ns, .imported path ns ∈ w.journal → ns.index < w.store.scopes.size
  /-- the cache has the namespace that an import took until a load of the module fails, and only until
  then -/
  current : ∀ path ns newer older, w.journal = newer ++ .imported path ns :: older →
    (w.modules.namespaceOf? path = some ns ↔ .failed path ∉ newer)
  pairs : OneNamespace w.journal

/-- An event that is no import adds no pair of imports. -/
theorem OneNamespace.cons {journal : List Event} (h : OneNamespace journal) {e : Event}
    (other : ∀ path ns, e ≠ .imported path ns) : OneNamespace (e :: journal) := by
  intro path ns ns' newer between older heq
  cases newer with
  | nil => exact absurd (List.cons.inj heq).1 (other path ns')
  | cons e' newer => exact h path ns ns' newer between older (List.cons.inj heq).2

namespace Shared

variable {w w' : World} {path : String}

/-- Nothing is shared before anything is imported. -/
theorem empty (modules : w.modules = []) (journal : w.journal = []) : Shared w where
  known path ns h := by
    rw [modules] at h
    exact nomatch h
  taken path ns h := by
    rw [journal] at h
    exact nomatch h
  current path ns newer older h := by
    rw [journal] at h
    exact absurd h.symm (by simp)
  pairs path ns ns' newer between older h := by
    rw [journal] at h
    exact absurd h.symm (by simp)

/-- New scopes, and the same cache and journal. -/
theorem quiet (h : Shared w) (scopes : w.store.scopes.size ≤ w'.store.scopes.size)
    (modules : w'.modules = w.modules) (journal : w'.journal = w.journal) : Shared w' where
  known path ns hns := by
    rw [modules] at hns
    exact Nat.lt_of_lt_of_le (h.known path ns hns) scopes
  taken path ns hin := by
    rw [journal] at hin
    exact Nat.lt_of_lt_of_le (h.taken path ns hin) scopes
  current := by
    rw [modules, journal]
    exact h.current
  pairs := by
    rw [journal]
    exact h.pairs

/-- An event that is no import.  If it is the failure of a load, the cache loses the module. -/
theorem event (h : Shared w) {e : Event} (scopes : w'.store.scopes = w.store.scopes)
    (journal : w'.journal = e :: w.journal) (other : ∀ path ns, e ≠ .imported path ns)
    (stays : ∀ path, e ≠ .failed path →
      w'.modules.namespaceOf? path = w.modules.namespaceOf? path)
    (lost : ∀ path, e = .failed path → w'.modules.namespaceOf? path = none) : Shared w' where
  known path ns hns := by
    rw [scopes]
    by_cases failed : e = .failed path
    · rw [lost path failed] at hns
      cases hns
    · rw [stays path failed] at hns
      exact h.known path ns hns
  taken path ns hin := by
    rw [journal] at hin
    rw [scopes]
    rcases List.mem_cons.mp hin with heq | hin
    · exact absurd heq.symm (other path ns)
    · exact h.taken path ns hin
  current path ns newer older heq := by
    rw [journal] at heq
    cases newer with
    | nil => exact absurd (List.cons.inj heq).1 (other path ns)
    | cons e' newer =>
      obtain ⟨rfl, hrest⟩ := List.cons.inj heq
      by_cases failed : e = .failed path
      · rw [lost path failed, failed]
        exact iff_of_false (by simp) fun hnot => hnot List.mem_cons_self
      · have before := h.current path ns newer older hrest
        rw [stays path failed, before, List.mem_cons, not_or]
        exact ⟨fun hnot => ⟨fun same => failed same.symm, hnot⟩, fun hnot => hnot.2⟩
  pairs := by
    rw [journal]
    exact h.pairs.cons other

/-- An import takes the namespace that the cache has. -/
theorem imports (h : Shared w) {ns : ScopeId} (found : w.modules.namespaceOf? path = some ns) :
    Shared (w.note (.imported path ns)) where
  known := h.known
  taken path' ns' hin := by
    rcases List.mem_cons.mp hin with heq | hin
    · cases heq
      exact h.known path ns found
    · exact h.taken path' ns' hin
  current path' ns' newer older heq := by
    cases newer with
    | nil =>
      cases (List.cons.inj heq).1
      exact iff_of_true found nofun
    | cons e newer =>
      obtain ⟨rfl, hrest⟩ := List.cons.inj heq
      have before := h.current path' ns' newer older hrest
      show w.modules.namespaceOf? path' = some ns' ↔ _
      rw [before, List.mem_cons, not_or]
      exact ⟨fun hnot => ⟨nofun, hnot⟩, fun hnot => hnot.2⟩
  pairs path' ns₁ ns₂ newer between older heq := by
    cases newer with
    | nil =>
      obtain ⟨he, hrest⟩ := List.cons.inj heq
      cases he
      -- the cache still has the namespace of the earlier import, or it has lost that one since
      rw [← h.current path ns₁ between older hrest, found, Option.some_inj]
    | cons e newer => exact h.pairs path' ns₁ ns₂ newer between older (List.cons.inj heq).2

/-- A load that begins fills a namespace that was not there before. -/
theorem beginLoad (h : Shared w) (new : w.HasNoEntry path) : Shared (w.beginLoad path) := by
  have more := w.lt_size_beginLoad path
  have entries (other : String) : (w.beginLoad path).modules.namespaceOf? other =
      if path = other then some ⟨w.store.scopes.size⟩ else w.modules.namespaceOf? other :=
    ModuleCache.namespaceOf?_insert ..
  refine ⟨fun other ns hns => ?_, fun other ns hin => ?_, fun other ns newer older heq => ?_, h.pairs⟩
  · rw [entries] at hns
    split at hns
    · cases hns
      exact more
    · exact Nat.lt_trans (h.known other ns hns) more
  · exact Nat.lt_trans (h.taken other ns hin) more
  · rw [entries, ← h.current other ns newer older heq]
    split
    · next same =>
      subst same
      -- the namespaces of earlier imports are older than this one, and the cache has none of them
      have gone : w.modules.namespaceOf? path = none := congrArg _ new
      have earlier : ns.index < w.store.scopes.size := by
        refine h.taken path ns ?_
        rw [show w.journal = newer ++ .imported path ns :: older from heq]
        simp
      rw [gone]
      refine iff_of_false (fun hns => ?_) (Option.some_ne_none _).symm
      cases hns
      exact Nat.lt_irrefl _ earlier
    · exact Iff.rfl

/-- A load that ended well keeps its namespace. -/
theorem finishLoad (h : Shared w') {ns : ScopeId}
    (entry : w'.modules.namespaceOf? path = some ns) : Shared (w'.finishLoad path ns) := by
  refine h.event rfl rfl nofun (fun other _ => ?_) nofun
  refine (ModuleCache.namespaceOf?_insert ..).trans ?_
  split
  · next same =>
    subst same
    exact entry.symm
  · rfl

/-- A load that failed loses its namespace. -/
theorem abandonLoad (h : Shared w') (path : String) : Shared (w'.abandonLoad path) := by
  refine h.event rfl rfl nofun (fun other hne => ?_) fun other heq => ?_
  · refine (ModuleCache.namespaceOf?_erase ..).trans (if_neg fun same => ?_)
    exact hne (congrArg Event.failed same)
  · cases heq
    exact (ModuleCache.namespaceOf?_erase ..).trans (if_pos rfl)

theorem change {home : Option ScopeId} {loading : List String} (h : Shared w)
    (hc : Change home loading w w') : Shared w' := by
  have grows := hc.grows.scopes
  cases hc with
  | raise f => exact h.event rfl rfl nofun (fun _ _ => rfl) nofun
  | enter code _ => exact h.event rfl rfl nofun (fun _ _ => rfl) nofun
  | imports found => exact h.imports found
  | surroundings | newCell | newScope | newIdentity | assign | bind | unbind =>
    exact h.quiet grows rfl rfl

end Shared

/-- **Code keeps the cache and the imports in step**, however it ends. -/
theorem Evolves.shared {e : Ending} {home : Option ScopeId} {loading : List String}
    {w w' : World} (h : Evolves e home loading w w') (hs : Shared w) : Shared w' := by
  induction h with
  | refl | cut | stuck => exact hs
  | change h => exact hs.change h
  | trans _ _ first later => exact later (first hs)
  | @inside _ _ _ w _ _ ih =>
    exact ih (hs.quiet (Grows.newScope none w []).scopes rfl rfl)
  | loaded new hbody ih =>
    -- the entry is still the one that the load began with
    have entry := ((hbody.settles rfl).loading _ _ _).mpr (Table.find?_insert_self _ _ _)
    exact (ih (hs.beginLoad new)).finishLoad (congrArg _ entry)
  | failed new _ ih => exact (ih (hs.beginLoad new)).abandonLoad _
  | unsettled _ new _ ih => exact ih (hs.beginLoad new)

namespace Session

variable {s t : Session}

/-- Between units the cache and the imports are in step. -/
theorem Later.shared (h : s.Later t) (start : Shared s.world) : Shared t.world := by
  induction h with
  | now => exact start
  | @unit t _ fuel source ports ih =>
    obtain heq | ⟨e, w, evolves, heq⟩ := evaluate_state t fuel source ports
    · rw [heq]
      exact ih
    · rw [heq]
      exact evolves.shared (ih.quiet (grows_entered none t).scopes rfl rfl)
  | @global t _ name v ih => exact ih.quiet (grows_bindGlobal t name v).scopes rfl rfl
  | host _ _ _ _ ih => exact ih.quiet (Nat.le_refl _) rfl rfl

/-- **One namespace for each module.**  A `use` that succeeds, wherever it runs, binds a namespace and writes
down which module it is of.  And in a session, whatever code it runs and however the files change, any two
of these bind the same namespace exactly if no load of the module failed between them. -/
theorem use_shares_namespace (library : Library) (environment : Environment) (files : FileTree)
    (processId : String) :
    (∀ (fuel : Nat) (name target : String) (span : Span) (f : Frame) (w w' : World),
      f.localScope.index < w.store.scopes.size →
      (Runner.ofFuel fuel).operation (.useModule name target span) f w = (.ok (), w') →
      ∃ path ns older, resolvePath f.source target = .ok path ∧
        w'.journal = .imported path ns :: older ∧
        f.findNamespace? w'.store name.toList = some ns) ∧
    ∀ t, (Session.start library environment files processId).Later t → OneNamespace t.world.journal := by
  refine ⟨fun fuel name target span f w w' known run => use_binds known run, fun t later => ?_⟩
  have start : Shared (Session.start library environment files processId).world := .empty rfl rfl
  exact (later.shared start).pairs

/-- The module that an event imports, and the namespace taken. -/
def importOf : Event → Option (String × ScopeId)
  | .imported path ns => some (path, ns)
  | _ => none

/-- Where the imports of a journal show one, the journal has it. -/
theorem exists_import {journal : List Event} {path : String} {ns : ScopeId}
    (after : List (Option (String × ScopeId))) {before : List (Option (String × ScopeId))}
    (h : journal.map importOf = after ++ some (path, ns) :: before) :
    ∃ newer older, journal = newer ++ .imported path ns :: older ∧
      newer.map importOf = after ∧ older.map importOf = before := by
  obtain ⟨newer, rest, rfl, hnewer, hrest⟩ := List.map_eq_append_iff.mp h
  obtain ⟨e, older, rfl, he, holder⟩ := List.map_eq_cons_iff.mp hrest
  cases e with
  | imported path' ns' =>
    cases he
    exact ⟨newer, older, rfl, hnewer, holder⟩
  | raised | running | loaded | failed => exact nomatch he

/-- A library of two modules that import each other; `ending` follows the import in the first one. -/
def cyclicLibrary (ending : String) : FileTree :=
  let text (code : String) : FileNode := .file (Utf8.encode code.toList) false
  ⟨.directory [("lib", .directory
    [("a.vesh", text ("x = 1; use b" ++ ending)), ("b.vesh", text "use a")])], []⟩

/-- In this session the load of `a` fails after `b` has imported it.  Then `a` is repaired, and the next unit
imports both. -/
def repaired : Session :=
  let broken := Session.start ⟨some "lib", []⟩ ⟨[]⟩ (cyclicLibrary "; fail stop") "1"
  ((broken.after "try \x7b use a \x7d except \x7b \x7d").mapWorld fun w =>
    { w with files := cyclicLibrary "" }).after "use a; use b; a:x = 2"

/-- The units and the host lead to that session. -/
theorem later_repaired :
    (Session.start ⟨some "lib", []⟩ ⟨[]⟩ (cyclicLibrary "; fail stop") "1").Later repaired :=
  .unit (.host (.unit .now 60 (.interactive "try \x7b use a \x7d except \x7b \x7d") .standard) _ _
    (cyclicLibrary "")) 60 (.interactive "use a; use b; a:x = 2") .standard

/-- The namespace that stands for a qualifier at the top of the session. -/
def namespaceOf? (s : Session) (ns : String) : Option ScopeId :=
  (s.frame (.interactive "") .standard ⟨s.world.store.scopes.size⟩).findNamespace? s.world.store
    ns.toList

/-- Its imports, the latest first: of `a` there are two, with two namespaces, which are still in use. -/
theorem imports_repaired :
    repaired.world.journal.map importOf =
        [some ("b", ⟨7⟩), some ("a", ⟨12⟩), none, some ("b", ⟨7⟩), none, none, none, some ("b", ⟨7⟩),
          none, some ("a", ⟨5⟩), none, none] ∧
      repaired.namespaceOf? "a" = some ⟨12⟩ ∧ repaired.namespaceOf? "b:a" = some ⟨5⟩ := by
  decide +kernel

/-- These two imports of `a` in the journal. -/
theorem exists_imports_repaired :
    ∃ newer between older, repaired.world.journal =
      newer ++ .imported "a" ⟨12⟩ :: (between ++ .imported "a" ⟨5⟩ :: older) := by
  obtain ⟨newer, rest, hjournal, -, hrest⟩ := exists_import [some ("b", ⟨7⟩)] imports_repaired.1
  obtain ⟨between, older, rfl, -, -⟩ :=
    exists_import [none, some ("b", ⟨7⟩), none, none, none, some ("b", ⟨7⟩), none] hrest
  exact ⟨newer, between, older, hjournal⟩

/-- The two imports took two namespaces, so a load of `a` failed between them. -/
theorem use_shares_namespace_until_failure :
    ∃ newer between older, repaired.world.journal =
        newer ++ .imported "a" ⟨12⟩ :: (between ++ .imported "a" ⟨5⟩ :: older) ∧
      .failed "a" ∈ between := by
  obtain ⟨newer, between, older, hjournal⟩ := exists_imports_repaired
  refine ⟨newer, between, older, hjournal, Classical.byContradiction fun quiet => ?_⟩
  have same := ((use_shares_namespace _ _ _ _).2 repaired later_repaired "a" ⟨5⟩ ⟨12⟩ newer between
    older hjournal).mpr quiet
  exact nomatch same

/-- **Namespaces part** when the load of a module fails inside an import cycle.  Two imports of `a` have
succeeded; the globals have one namespace under `a`, and `b` has the other, so that an assignment to `a:x`
is not seen as `b:a:x`. -/
theorem namespaces_part :
    (Session.start ⟨some "lib", []⟩ ⟨[]⟩ (cyclicLibrary "; fail stop") "1").Later repaired ∧
    ∃ ns ns', .imported "a" ns ∈ repaired.world.journal ∧
      .imported "a" ns' ∈ repaired.world.journal ∧ ns ≠ ns' ∧
      repaired.namespaceOf? "a" = some ns' ∧ repaired.namespaceOf? "b:a" = some ns := by
  obtain ⟨newer, between, older, hjournal⟩ := exists_imports_repaired
  have first : .imported "a" ⟨5⟩ ∈ repaired.world.journal := by
    rw [hjournal]
    simp
  have second : .imported "a" ⟨12⟩ ∈ repaired.world.journal := by
    rw [hjournal]
    simp
  exact ⟨later_repaired, ⟨5⟩, ⟨12⟩, first, second, nofun, imports_repaired.2⟩

end Session

end ValueShell
