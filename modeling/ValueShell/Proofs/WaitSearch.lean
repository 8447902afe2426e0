/-
  The search through the waits of the module cache.

  The entries of the cache span a graph: from a module that is being loaded to every module its load waits
  for.  Before an import waits, `waitsOnSelf` searches this graph for one of the loads that the import is a
  part of.  The search looks at a path once at most and gives up after a number of steps; here it is shown
  that it finds what there is to find (`waitsOnSelf_of_reaches`).  What carries the proof is that a path that
  was seen either is pending, or was looked at and has all that it waits for among the seen ones.

  So an import that does wait closes no cycle of waits (`Acyclic.setWaiting`).
-/
import Mathlib.Data.Fintype.Card
import Mathlib.Data.Fintype.EquivFin
import Mathlib.Data.Fintype.Sets
import Mathlib.Logic.Relation
import Mathlib.Order.WellFounded
import ValueShell.Module.Cache

namespace ValueShell

namespace ModuleCache

open Relation

variable {cache : ModuleCache} {loading seen pending : List String} {path other : String}

/-- The load of one module waits for another module. -/
def Waits (cache : ModuleCache) (path other : String) : Prop := other ∈ cache.waitedFor path

/-- No load waits for itself, through any chain of waits. -/
def Acyclic (cache : ModuleCache) : Prop := ∀ path, ¬ TransGen cache.Waits path path

/-! ## Steps of the search -/

/-- What the search goes on to has not been seen, and is seen from then on. -/
theorem mem_unseen (paths : List String) : ∀ seen : List String,
    (∀ x, x ∈ (unseen seen paths).1 ↔ x ∈ paths ∧ x ∉ seen) ∧
      (∀ x, x ∈ (unseen seen paths).2 ↔ x ∈ seen ∨ x ∈ paths) := by
  induction paths with
  | nil => exact fun seen => ⟨fun x => by simp [unseen], fun x => by simp [unseen]⟩
  | cons path rest ih =>
    intro seen
    unfold unseen
    by_cases known : path ∈ seen
    · rw [if_pos (List.contains_iff_mem.mpr known)]
      obtain ⟨new, all⟩ := ih seen
      refine ⟨fun x => (new x).trans ?_, fun x => (all x).trans ?_⟩
      · constructor
        · exact fun h => ⟨List.mem_cons_of_mem _ h.1, h.2⟩
        · rintro ⟨h, fresh⟩
          rcases List.mem_cons.mp h with rfl | h
          · exact absurd known fresh
          · exact ⟨h, fresh⟩
      · rw [List.mem_cons]
        constructor
        · exact fun h => h.imp_right .inr
        · rintro (h | rfl | h)
          · exact .inl h
          · exact .inl known
          · exact .inr h
    · rw [if_neg fun h => known (List.contains_iff_mem.mp h)]
      obtain ⟨new, all⟩ := ih (path :: seen)
      refine ⟨fun x => ?_, fun x => (all x).trans ?_⟩
      · show x ∈ path :: (unseen (path :: seen) rest).1 ↔ _
        rw [List.mem_cons, new x, List.mem_cons, List.mem_cons]
        by_cases same : x = path
        · subst same
          simp [known]
        · simp [same]
      · rw [List.mem_cons, List.mem_cons, or_assoc, or_left_comm]

/-- What was not seen before is counted once. -/
theorem length_unseen (paths : List String) : ∀ seen : List String, seen.Nodup →
    (unseen seen paths).2.Nodup ∧
      (unseen seen paths).2.length = seen.length + (unseen seen paths).1.length := by
  induction paths with
  | nil => exact fun seen distinct => ⟨distinct, rfl⟩
  | cons path rest ih =>
    intro seen distinct
    unfold unseen
    by_cases known : path ∈ seen
    · rw [if_pos (List.contains_iff_mem.mpr known)]
      exact ih seen distinct
    · rw [if_neg fun h => known (List.contains_iff_mem.mp h)]
      obtain ⟨distinct', length⟩ := ih (path :: seen) (List.nodup_cons.mpr ⟨known, distinct⟩)
      refine ⟨distinct', length.trans ?_⟩
      show _ = seen.length + ((unseen (path :: seen) rest).1.length + 1)
      rw [List.length_cons]
      omega

/-- Who is waited for is among those that anybody waits for. -/
theorem mem_allWaitedFor (h : cache.Waits path other) : other ∈ cache.allWaitedFor := by
  unfold Waits waitedFor at h
  cases entry : Table.find? cache path with
  | none =>
    rw [entry] at h
    exact nomatch h
  | some found =>
    rw [entry] at h
    cases found with
    | loaded ns => exact nomatch h
    | loading ns waitingOn => exact List.mem_flatMap.mpr ⟨_, Table.mem_of_find? entry, h⟩

/-- **A search that finds nothing** has looked at everything that the pending paths wait for.  Each path is
counted among the seen ones when it becomes pending, so the steps suffice. -/
theorem search_false {root : String} : ∀ (steps : Nat) (seen pending : List String),
    search cache loading steps seen pending = false → seen.Nodup → seen ⊆ cache.allWaitedFor →
    steps + seen.length = cache.allWaitedFor.length + 1 + pending.length →
    (∀ x, x = root ∨ x ∈ seen → x ∈ pending ∨ x ∉ loading ∧ ∀ y, cache.Waits x y → y ∈ seen) →
    ∀ x, ReflTransGen cache.Waits root x → x ∉ loading := by
  intro steps
  induction steps with
  | zero =>
    intro seen pending _ distinct within count _
    have most := distinct.length_le_of_subset within
    omega
  | succ steps ih =>
    intro seen pending run distinct within count visited
    cases pending with
    | nil =>
      -- nothing is pending, so what was seen is closed
      have closed (x : String) (h : x = root ∨ x ∈ seen) : x ∉ loading ∧ ∀ y, cache.Waits x y → y ∈ seen :=
        (visited x h).resolve_left nofun
      have reached {x : String} (h : ReflTransGen cache.Waits root x) : x = root ∨ x ∈ seen := by
        induction h with
        | refl => exact .inl rfl
        | tail _ wait ih => exact .inr ((closed _ ih).2 _ wait)
      exact fun x h => (closed x (reached h)).1
    | cons path pending =>
      unfold search at run
      by_cases found : loading.contains path = true
      · rw [if_pos found] at run
        exact nomatch run
      · rw [if_neg found] at run
        obtain ⟨new, all⟩ := mem_unseen (cache.waitedFor path) seen
        obtain ⟨distinct', length⟩ := length_unseen (cache.waitedFor path) seen distinct
        refine ih _ _ run distinct' (fun x h => ?_) ?_ fun x h => ?_
        · rcases (all x).mp h with h | h
          · exact within h
          · exact mem_allWaitedFor h
        · rw [List.length_append, List.length_reverse, length]
          rw [List.length_cons] at count
          omega
        · rw [List.mem_append, List.mem_reverse, new x]
          by_cases here : x = path
          · subst here
            refine .inr ⟨fun h => found (List.contains_iff_mem.mpr h), fun y wait => (all y).mpr (.inr wait)⟩
          · have before (h : x = root ∨ x ∈ seen) : (x ∈ cache.waitedFor path ∧ x ∉ seen ∨ x ∈ pending) ∨
                x ∉ loading ∧ ∀ y, cache.Waits x y → y ∈ (unseen seen (cache.waitedFor path)).2 := by
              rcases visited x h with h | ⟨apart, closed⟩
              · exact .inl (.inr ((List.mem_cons.mp h).resolve_left here))
              · exact .inr ⟨apart, fun y wait => (all y).mpr (.inl (closed y wait))⟩
            rcases h with h | h
            · exact before (.inl h)
            · by_cases old : x ∈ seen
              · exact before (.inr old)
              · exact .inl (.inl ⟨((all x).mp h).resolve_left old, old⟩)

/-- **An import finds out that it would wait for itself**: if the load it would wait for waits, through any chain
of waits, for one that the import is a part of. -/
theorem waitsOnSelf_of_reaches {load : String} (mem : load ∈ loading)
    (reaches : ReflTransGen cache.Waits path load) : cache.waitsOnSelf path loading = true := by
  cases run : cache.waitsOnSelf path loading with
  | true => rfl
  | false =>
    refine absurd mem (search_false _ [] [path] run List.nodup_nil (List.nil_subset _) ?_ ?_ load reaches)
    · rfl
    · rintro x (rfl | h)
      · exact .inl List.mem_cons_self
      · exact nomatch h

end ModuleCache

/-! ## Beginning and ending loads -/

namespace ModuleCache

variable {cache cache' : ModuleCache} {path load other : String}

/-- Only a module that is loading waits. -/
theorem isLoading_of_waits (h : cache.Waits load other) : cache.IsLoading load := by
  unfold Waits waitedFor at h
  split at h
  · next ns waitingOn entry => exact ⟨ns, waitingOn, entry⟩
  · exact nomatch h

/-- What is said of one module does not change the waits of another. -/
theorem waits_congr (same : Table.find? cache' load = Table.find? cache load) :
    cache'.Waits load other ↔ cache.Waits load other := by
  rw [Waits, Waits, waitedFor, waitedFor, same]

/-- A load that begins waits for nothing. -/
theorem waits_begun {ns : ScopeId} (h : Waits (Table.insert cache path (.loading ns [])) load other) :
    path ≠ load ∧ cache.Waits load other := by
  by_cases same : path = load
  · subst same
    rw [Waits, waitedFor, Table.find?_insert_self] at h
    exact nomatch h
  · exact ⟨same, (waits_congr (Table.find?_insert_of_ne _ _ same)).mp h⟩

/-- One load more. -/
theorem isLoading_begun {ns : ScopeId} :
    IsLoading (Table.insert cache path (.loading ns [])) other ↔ path = other ∨ cache.IsLoading other := by
  unfold IsLoading
  rw [Table.find?_insert]
  split
  · next same => exact ⟨fun _ => .inl same, fun _ => ⟨_, _, rfl⟩⟩
  · next different => exact ⟨.inr, fun h => h.resolve_left different⟩

/-- The end of a load concerns nobody else. -/
theorem find?_endLoad (ns : ScopeId) (succeeds : Bool) (different : path ≠ other) :
    Table.find? (cache.endLoad path ns succeeds) other = Table.find? cache other := by
  cases succeeds
  · exact (Table.find?_erase ..).trans (if_neg different)
  · exact Table.find?_insert_of_ne _ _ different

/-- One load less. -/
theorem isLoading_ended {ns : ScopeId} {succeeds : Bool} :
    (cache.endLoad path ns succeeds).IsLoading other ↔ path ≠ other ∧ cache.IsLoading other := by
  by_cases same : path = other
  · subst same
    refine ⟨?_, fun h => absurd rfl h.1⟩
    rintro ⟨ns', waitingOn, entry⟩
    cases succeeds
    · rw [endLoad, if_neg nofun, Table.find?_erase, if_pos rfl] at entry
      exact nomatch entry
    · rw [endLoad, if_pos rfl, Table.find?_insert_self] at entry
      exact nomatch entry
  · rw [IsLoading, find?_endLoad ns succeeds same]
    exact ⟨fun h => ⟨same, h⟩, And.right⟩

/-- The end of a load adds no wait. -/
theorem waits_ended {ns : ScopeId} {succeeds : Bool} (h : (cache.endLoad path ns succeeds).Waits load other) :
    cache.Waits load other :=
  (waits_congr (find?_endLoad ns succeeds (isLoading_ended.mp (isLoading_of_waits h)).1)).mp h

end ModuleCache

/-! ## Recording waits -/

/-- The entry of a load after a wait is recorded or cleared. -/
def ModuleEntry.recordWait (path : String) (waiting : Bool) : ModuleEntry → ModuleEntry
  | .loading ns waitingOn =>
    .loading ns (if waiting then waitingOn ++ [path] else ModuleCache.removeOne path waitingOn)
  | .loaded ns => .loaded ns

namespace ModuleCache

open Relation

variable {cache : ModuleCache} {loading : List String} {path : String}

/-- A wait is recorded with every load that the import is a part of, as often as it is named, and with no other. -/
theorem find?_setWaiting (cache : ModuleCache) (loading : List String) (path : String) (waiting : Bool)
    (other : String) :
    Table.find? (cache.setWaiting loading path waiting) other =
      (Table.find? cache other).map (ModuleEntry.recordWait path waiting)^[loading.count other] := by
  induction loading generalizing cache with
  | nil => exact Option.map_id.symm ▸ rfl
  | cons load rest ih =>
    have one (other : String) : Table.find? (cache.setWaiting [load] path waiting) other =
        if load = other then (Table.find? cache other).map (ModuleEntry.recordWait path waiting)
        else Table.find? cache other := by
      simp only [setWaiting, List.foldl_cons, List.foldl_nil]
      by_cases same : load = other
      · subst same
        rw [if_pos rfl]
        cases entry : Table.find? cache load with
        | none => exact entry
        | some found =>
          cases found with
          | loaded ns => exact entry
          | loading ns waitingOn => exact Table.find?_insert_self _ _ _
      · rw [if_neg same]
        split
        · exact Table.find?_insert_of_ne _ _ same
        · rfl
    show Table.find? ((cache.setWaiting [load] path waiting).setWaiting rest path waiting) other = _
    rw [ih, one]
    by_cases same : load = other
    · rw [if_pos same, same, List.count_cons_self, Function.iterate_succ, Option.map_map]
    · rw [if_neg same, List.count_cons_of_ne same]

/-- A wait that is recorded with some loads does not change the others. -/
theorem find?_setWaiting_of_not_mem {load : String} (apart : load ∉ loading) (path : String) (waiting : Bool) :
    Table.find? (cache.setWaiting loading path waiting) load = Table.find? cache load := by
  rw [find?_setWaiting, List.count_eq_zero.mpr apart]
  exact Option.map_id'

/-- Recording and clearing a wait leaves an entry of a load such an entry, and its namespace as it is. -/
theorem recordWait_iterate_loading (path : String) (waiting : Bool) (ns : ScopeId) (waitingOn : List String)
    (n : Nat) : ∃ waitingOn', (ModuleEntry.recordWait path waiting)^[n] (.loading ns waitingOn) =
      .loading ns waitingOn' := by
  induction n generalizing waitingOn with
  | zero => exact ⟨waitingOn, rfl⟩
  | succ n ih => exact ih _

/-- Nothing is recorded with a module that has been loaded. -/
theorem recordWait_iterate_loaded (path : String) (waiting : Bool) (ns : ScopeId) (n : Nat) :
    (ModuleEntry.recordWait path waiting)^[n] (.loaded ns) = .loaded ns :=
  Function.iterate_fixed rfl n

/-- A wait that is recorded is added at the end, once for each time. -/
theorem recordWait_iterate (path : String) (ns : ScopeId) (waitingOn : List String) (n : Nat) :
    (ModuleEntry.recordWait path true)^[n] (.loading ns waitingOn) =
      .loading ns (waitingOn ++ List.replicate n path) := by
  induction n generalizing waitingOn with
  | zero => exact congrArg (ModuleEntry.loading ns) (List.append_nil _).symm
  | succ n ih => exact (ih _).trans (congrArg (ModuleEntry.loading ns) (List.append_assoc ..))

/-- A wait that is cleared is taken out, once for each time. -/
theorem clearWait_iterate (path : String) (ns : ScopeId) (waitingOn : List String) (n : Nat) :
    (ModuleEntry.recordWait path false)^[n] (.loading ns waitingOn) =
      .loading ns ((removeOne path)^[n] waitingOn) := by
  induction n generalizing waitingOn with
  | zero => rfl
  | succ n ih => exact ih _

/-- Recording and clearing waits begins and ends no load. -/
theorem isLoading_setWaiting (path : String) (waiting : Bool) (other : String) :
    (cache.setWaiting loading path waiting).IsLoading other ↔ cache.IsLoading other := by
  unfold IsLoading
  rw [find?_setWaiting]
  constructor
  · rintro ⟨ns, waitingOn, entry⟩
    obtain ⟨found, entry, same⟩ := Option.map_eq_some_iff.mp entry
    cases found with
    | loaded ns' =>
      rw [recordWait_iterate_loaded] at same
      exact nomatch same
    | loading ns' waitingOn' => exact ⟨ns', waitingOn', entry⟩
  · rintro ⟨ns, waitingOn, entry⟩
    obtain ⟨waitingOn', same⟩ := recordWait_iterate_loading path waiting ns waitingOn (loading.count other)
    exact ⟨ns, waitingOn', by rw [entry, Option.map_some, same]⟩

/-- A load that the import is not a part of waits for what it waited for. -/
theorem waits_setWaiting_of_not_mem (path : String) (waiting : Bool) {load other : String} (apart : load ∉ loading) :
    (cache.setWaiting loading path waiting).Waits load other ↔ cache.Waits load other :=
  waits_congr (find?_setWaiting_of_not_mem apart path waiting)

/-- A wait is recorded with each of the loads. -/
theorem waits_recorded {load : String} (mem : load ∈ loading) (entry : cache.IsLoading load) (path : String) :
    (cache.setWaiting loading path true).Waits load path := by
  obtain ⟨ns, waitingOn, entry⟩ := entry
  unfold Waits waitedFor
  rw [find?_setWaiting, entry, Option.map_some, recordWait_iterate]
  exact List.mem_append_right _ (List.mem_replicate.mpr ⟨(List.count_pos_iff.mpr mem).ne', rfl⟩)

/-- To remove something adds nothing. -/
theorem mem_of_mem_removeOne {x : String} {paths : List String} (h : x ∈ removeOne path paths) :
    x ∈ paths := by
  unfold removeOne at h
  split at h
  · exact h
  · split at h
    · exact h
    · next last hlast =>
      rcases List.mem_or_eq_of_mem_set (List.dropLast_subset _ h) with h | rfl
      · exact h
      · exact List.mem_of_getLast? hlast

/-- What a load waits for after one wait was recorded or cleared. -/
theorem waits_setWaiting {waiting : Bool} {load other : String}
    (h : (cache.setWaiting loading path waiting).Waits load other) :
    ∃ ns waitingOn waitingOn', Table.find? cache load = some (.loading ns waitingOn) ∧
      (ModuleEntry.recordWait path waiting)^[loading.count load] (.loading ns waitingOn) = .loading ns waitingOn' ∧
      other ∈ waitingOn' := by
  obtain ⟨ns, waitingOn, entry⟩ := (isLoading_setWaiting path waiting load).mp (isLoading_of_waits h)
  obtain ⟨waitingOn', same⟩ := recordWait_iterate_loading path waiting ns waitingOn (loading.count load)
  unfold Waits waitedFor at h
  rw [find?_setWaiting, entry, Option.map_some, same] at h
  exact ⟨ns, waitingOn, waitingOn', entry, same, h⟩

/-- The waits of a load are those in its list. -/
theorem waits_of_find? {ns : ScopeId} {waitingOn : List String} {load other : String}
    (entry : Table.find? cache load = some (.loading ns waitingOn)) (mem : other ∈ waitingOn) :
    cache.Waits load other := by
  unfold Waits waitedFor
  rw [entry]
  exact mem

/-- A wait that was recorded: one edge more from every load that the import is a part of. -/
theorem waits_of_recorded {load other : String} (h : (cache.setWaiting loading path true).Waits load other) :
    cache.Waits load other ∨ load ∈ loading ∧ other = path := by
  obtain ⟨ns, waitingOn, _, entry, same, mem⟩ := waits_setWaiting h
  rw [recordWait_iterate] at same
  cases same
  rcases List.mem_append.mp mem with mem | mem
  · exact .inl (waits_of_find? entry mem)
  · obtain ⟨part, rfl⟩ := List.mem_replicate.mp mem
    exact .inr ⟨List.count_pos_iff.mp (Nat.pos_of_ne_zero part), rfl⟩

theorem mem_of_mem_removeOne_iterate {x : String} {paths : List String} (n : Nat)
    (h : x ∈ (removeOne path)^[n] paths) : x ∈ paths := by
  induction n generalizing paths with
  | zero => exact h
  | succ n ih => exact mem_of_mem_removeOne (ih h)

/-- A wait that was cleared: no edge more. -/
theorem waits_of_cleared {load other : String} (h : (cache.setWaiting loading path false).Waits load other) :
    cache.Waits load other := by
  obtain ⟨ns, waitingOn, _, entry, same, mem⟩ := waits_setWaiting h
  rw [clearWait_iterate] at same
  cases same
  exact waits_of_find? entry (mem_of_mem_removeOne_iterate _ mem)

/-! ## No cycle of waits -/

/-- Fewer waits have no more cycles. -/
theorem Acyclic.mono {cache' : ModuleCache} (h : cache.Acyclic)
    (fewer : ∀ load other, cache'.Waits load other → cache.Waits load other) : cache'.Acyclic :=
  fun path cycle => h path (TransGen.mono fewer _ _ cycle)

/-- A chain of waits after one more was recorded: it is one of before, or the import waits for itself. -/
theorem reaches_of_recorded {load other : String}
    (h : ReflTransGen (cache.setWaiting loading path true).Waits load other) :
    ReflTransGen cache.Waits load other ∨
      (∃ part ∈ loading, ReflTransGen cache.Waits load part) ∧ ReflTransGen cache.Waits path other := by
  induction h with
  | refl => exact .inl .refl
  | tail _ wait ih =>
    obtain wait | ⟨part, rfl⟩ := waits_of_recorded wait
    · exact ih.imp (·.tail wait) fun ⟨first, last⟩ => ⟨first, last.tail wait⟩
    · rcases ih with before | ⟨first, -⟩
      · exact .inr ⟨⟨_, part, before⟩, .refl⟩
      · exact .inr ⟨first, .refl⟩

/-- **An import that waits closes no cycle**: it has made sure of that. -/
theorem Acyclic.setWaiting (h : cache.Acyclic) (waits : cache.waitsOnSelf path loading = false) :
    (cache.setWaiting loading path true).Acyclic := by
  have apart {part : String} (mem : part ∈ loading) : ¬ ReflTransGen cache.Waits path part := fun reaches => by
    rw [waitsOnSelf_of_reaches mem reaches] at waits
    exact nomatch waits
  intro load cycle
  obtain ⟨next, wait, back⟩ := TransGen.head'_iff.mp cycle
  obtain wait | ⟨part, rfl⟩ := waits_of_recorded wait
  · rcases reaches_of_recorded back with before | ⟨⟨part, mem, first⟩, last⟩
    · exact h load (TransGen.head' wait before)
    · exact apart mem (last.trans (.head wait first))
  · rcases reaches_of_recorded back with before | ⟨-, last⟩
    · exact apart part before
    · exact apart part last

/-- Among any loads there is one that waits for none of them. -/
theorem Acyclic.exists_last (h : cache.Acyclic) {among : String → Prop} (loads : ∀ x, among x → cache.IsLoading x)
    {load : String} (mem : among load) : ∃ last, among last ∧ ∀ next, among next → ¬ cache.Waits last next := by
  -- a load has an entry, and there are finitely many of them
  have entry {x : String} (h : among x) : x ∈ Table.names cache := by
    obtain ⟨ns, waitingOn, entry⟩ := loads x h
    exact Table.mem_names.mpr (entry ▸ rfl)
  let later (a b : { x // x ∈ Table.names cache }) : Prop := TransGen cache.Waits b.1 a.1
  have : IsTrans _ later := ⟨fun a b c hab hbc => hbc.trans hab⟩
  have : Std.Irrefl later := ⟨fun a => h a.1⟩
  have ends : WellFounded later := Finite.wellFounded_of_trans_of_irrefl later
  obtain ⟨last, inside, min⟩ := ends.has_min { x | among x.1 } ⟨⟨load, entry mem⟩, mem⟩
  exact ⟨last.1, inside, fun next hn wait => min ⟨next, entry hn⟩ hn (.single wait)⟩

end ModuleCache

end ValueShell
