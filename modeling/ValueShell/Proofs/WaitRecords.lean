/-
  What the waits in the module cache say.

  The search for a load that an import would wait for stops after a number of steps that is fixed beforehand.
  `SearchEnds` is the same search with no such number.  It ends for every cache, those with a cycle of waits
  among them, and with the answer of `waitsOnSelf` (`searchEnds_iff`); and that answer is whether the load can
  be reached (`waitsOnSelf_iff`).  `search_false` of the module before is one half of this, and
  `reaches_of_search` is the other.

  Several importers record and clear their waits in any order.  A wait is cleared by taking one item out of a
  list and moving the last one to its place, so the lists get mixed up.  The crux is that they only get mixed up:
  to take an item out in this way is to erase it, up to the order (`removeOne_perm`).  Hence the list of a load
  that goes on is a rearrangement of the waits that are recorded and not cleared (`ImportStep.recorded` for one
  step, `recorded_of_run` for all of them).
-/
import ValueShell.Proofs.WaitSearch

namespace ValueShell

namespace ModuleCache

open Relation

variable {cache : ModuleCache} {loading seen pending : List String} {path : String}

/-! ## The search without a bound -/

/-- The search for one of `loading`, with any number of steps: with the paths `seen`, and the paths `pending` still
to be looked at, it ends with an answer. -/
inductive SearchEnds (cache : ModuleCache) (loading : List String) : List String → List String → Bool → Prop
  | exhausted {seen : List String} : SearchEnds cache loading seen [] false
  | found {seen pending : List String} {path : String} (part : path ∈ loading) :
      SearchEnds cache loading seen (path :: pending) true
  | looks {seen pending : List String} {path : String} {answer : Bool} (apart : path ∉ loading)
      (rest : SearchEnds cache loading (unseen seen (cache.waitedFor path)).2
        ((unseen seen (cache.waitedFor path)).1.reverse ++ pending) answer) :
      SearchEnds cache loading seen (path :: pending) answer

/-- The search has one answer. -/
theorem SearchEnds.unique {answer answer' : Bool} (h : SearchEnds cache loading seen pending answer)
    (h' : SearchEnds cache loading seen pending answer') : answer = answer' := by
  induction h with
  | exhausted =>
    cases h'
    rfl
  | found part =>
    cases h' with
    | found => rfl
    | looks apart => exact absurd part apart
  | looks apart _ ih =>
    cases h' with
    | found part => exact absurd part apart
    | looks _ rest => exact ih rest

/-- **The bound is never met.**  A path becomes pending once at most, and all but the first are waited for by
some entry. -/
theorem search_ends : ∀ (steps : Nat) (seen pending : List String), seen.Nodup → seen ⊆ cache.allWaitedFor →
    steps + seen.length = cache.allWaitedFor.length + 1 + pending.length →
    SearchEnds cache loading seen pending (search cache loading steps seen pending) := by
  intro steps
  induction steps with
  | zero =>
    intro seen pending distinct within count
    have most := distinct.length_le_of_subset within
    omega
  | succ steps ih =>
    intro seen pending distinct within count
    cases pending with
    | nil => exact .exhausted
    | cons path pending =>
      unfold search
      by_cases part : path ∈ loading
      · rw [if_pos (List.contains_iff_mem.mpr part)]
        exact .found part
      · rw [if_neg fun h => part (List.contains_iff_mem.mp h)]
        obtain ⟨distinct', length⟩ := length_unseen (cache.waitedFor path) seen distinct
        refine .looks part (ih _ _ distinct' (fun x h => ?_) ?_)
        · rcases ((mem_unseen (cache.waitedFor path) seen).2 x).mp h with h | h
          · exact within h
          · exact mem_allWaitedFor h
        · rw [List.length_append, List.length_reverse, length]
          rw [List.length_cons] at count
          omega

/-- The search ends, whatever the cache, with the answer of `waitsOnSelf`. -/
theorem searchEnds_iff (cache : ModuleCache) (path : String) (loading : List String) (answer : Bool) :
    SearchEnds cache loading [] [path] answer ↔ cache.waitsOnSelf path loading = answer := by
  have ends : SearchEnds cache loading [] [path] (cache.waitsOnSelf path loading) :=
    search_ends _ [] [path] List.nodup_nil (List.nil_subset _) rfl
  exact ⟨ends.unique, fun same => same ▸ ends⟩

/-- A search that finds a load has come to it from a pending path. -/
theorem reaches_of_search (ends : SearchEnds cache loading seen pending true) :
    ∃ path ∈ pending, ∃ load ∈ loading, ReflTransGen cache.Waits path load := by
  generalize same : true = answer at ends
  induction ends with
  | exhausted => exact nomatch same
  | found part => exact ⟨_, List.mem_cons_self, _, part, .refl⟩
  | @looks seen pending path _ _ _ ih =>
    obtain ⟨next, mem, load, part, reaches⟩ := ih same
    rcases List.mem_append.mp mem with mem | mem
    · have wait : cache.Waits path next :=
        (((mem_unseen (cache.waitedFor path) seen).1 next).mp (List.mem_reverse.mp mem)).1
      exact ⟨path, List.mem_cons_self, load, part, .head wait reaches⟩
    · exact ⟨next, List.mem_cons_of_mem _ mem, load, part, reaches⟩

/-- An import would wait for itself if the load it would wait for is one it is a part of, or waits for one through
any chain of waits. -/
theorem waitsOnSelf_iff : cache.waitsOnSelf path loading = true ↔
    ∃ load ∈ loading, ReflTransGen cache.Waits path load := by
  constructor
  · intro found
    obtain ⟨first, mem, reached⟩ := reaches_of_search ((searchEnds_iff cache path loading true).mpr found)
    rwa [List.mem_singleton.mp mem] at reached
  · exact fun ⟨_, mem, reaches⟩ => waitsOnSelf_of_reaches mem reaches

/-- The search ends where two loads wait for each other. -/
example : waitsOnSelf [("a", .loading ⟨1⟩ ["b"]), ("b", .loading ⟨2⟩ ["a"])] "a" ["c"] = false := by
  decide +kernel

/-! ## Taking out one wait -/

theorem idxOf?_append_cons {x : String} {before : List String} (first : x ∉ before) (after : List String) :
    (before ++ x :: after).idxOf? x = some before.length := by
  rw [List.idxOf?_eq_some_iff]
  refine ⟨by simp, by simp, fun j earlier same => first ?_⟩
  rw [List.getElem_append_left earlier] at same
  exact same ▸ List.getElem_mem earlier

/-- To move the last item to the place of another is to erase that other one, up to the order. -/
theorem removeOne_perm (path : String) (paths : List String) : (removeOne path paths).Perm (paths.erase path) := by
  by_cases mem : path ∈ paths
  · obtain ⟨before, after, first, rfl, erased⟩ := List.exists_erase_eq mem
    unfold removeOne
    rw [erased, idxOf?_append_cons first]
    dsimp only
    rcases List.eq_nil_or_concat after with rfl | ⟨inner, last, rfl⟩
    · -- the item is the last one itself
      rw [List.getLast?_append, List.getLast?_singleton, Option.some_or]
      dsimp only
      rw [List.set_append_right _ _ le_rfl, Nat.sub_self, List.set_cons_zero, List.dropLast_concat,
        List.append_nil]
    · have ends : before ++ path :: inner.concat last = (before ++ path :: inner) ++ [last] := by
        rw [List.concat_eq_append, List.append_assoc, List.cons_append]
      have moved : ((before ++ path :: inner) ++ [last]).set before.length last =
          (before ++ last :: inner) ++ [last] := by
        rw [List.append_assoc, List.set_append_right _ _ le_rfl, Nat.sub_self, List.cons_append,
          List.set_cons_zero, List.append_assoc, List.cons_append]
      rw [ends, List.getLast?_append, List.getLast?_singleton, Option.some_or]
      dsimp only
      rw [moved, List.dropLast_concat, List.concat_eq_append]
      exact List.Perm.append_left before (List.perm_append_singleton last inner).symm
  · unfold removeOne
    rw [List.idxOf?_eq_none_iff.mpr mem, List.erase_of_not_mem mem]

/-- What is left after a path was taken out several times from among others. -/
theorem removeOne_iterate_perm {rest : List String} (path : String) (n : Nat) {paths : List String}
    (same : paths.Perm (List.replicate n path ++ rest)) : ((removeOne path)^[n] paths).Perm rest := by
  induction n generalizing paths with
  | zero => exact same
  | succ n ih =>
    refine ih ((removeOne_perm path paths).trans ((same.erase path).trans ?_))
    rw [List.replicate_succ, List.cons_append, List.erase_cons_head]

/-! ## Several importers -/

/-- A wait: the loads `loading`, which an import is a part of, wait for the module `path`. -/
structure Wait where
  loading : List String
  path : String
deriving DecidableEq

/-- What waits leave with a load: for each one its module, as often as the load is named. -/
def Wait.recordedWith (load : String) (waits : List Wait) : List String :=
  waits.flatMap fun wait => List.replicate (wait.loading.count load) wait.path

/-- The cache while several importers are at work, and the waits that they have recorded and not cleared. -/
structure Importing where
  cache : ModuleCache
  waits : List Wait

/-- **One step of one importer**, in the course of which the load of `load` neither begins nor ends.  An importer
clears no wait but one that was recorded. -/
inductive ImportStep (load : String) : Importing → Importing → Prop
  | records (s : Importing) (wait : Wait) :
      ImportStep load s ⟨s.cache.setWaiting wait.loading wait.path true, wait :: s.waits⟩
  | clears (s : Importing) {wait : Wait} (recorded : wait ∈ s.waits) :
      ImportStep load s ⟨s.cache.setWaiting wait.loading wait.path false, s.waits.erase wait⟩
  | begins (s : Importing) {path : String} (other : path ≠ load) (ns : ScopeId) :
      ImportStep load s ⟨Table.insert s.cache path (.loading ns []), s.waits⟩
  | ends (s : Importing) {path : String} (other : path ≠ load) (ns : ScopeId) (succeeds : Bool) :
      ImportStep load s ⟨s.cache.endLoad path ns succeeds, s.waits⟩

/-- The entry of a load has the waits that are recorded and not cleared, each as often as it was recorded. -/
def Importing.Recorded (s : Importing) (load : String) : Prop :=
  ∃ ns waitingOn, Table.find? s.cache load = some (.loading ns waitingOn) ∧
    waitingOn.Perm (Wait.recordedWith load s.waits)

theorem Wait.recordedWith_cons (load : String) (wait : Wait) (waits : List Wait) :
    Wait.recordedWith load (wait :: waits) =
      List.replicate (wait.loading.count load) wait.path ++ Wait.recordedWith load waits :=
  List.flatMap_cons

theorem ImportStep.recorded {load : String} {s s' : Importing} (step : ImportStep load s s')
    (h : s.Recorded load) : s'.Recorded load := by
  obtain ⟨ns, waitingOn, entry, same⟩ := h
  cases step with
  | records wait =>
    refine ⟨ns, waitingOn ++ List.replicate (wait.loading.count load) wait.path, ?_, ?_⟩
    · rw [find?_setWaiting, entry, Option.map_some, recordWait_iterate]
    · rw [Wait.recordedWith_cons]
      exact List.perm_append_comm.trans (same.append_left _)
  | @clears wait recorded =>
    refine ⟨ns, (removeOne wait.path)^[wait.loading.count load] waitingOn, ?_, ?_⟩
    · rw [find?_setWaiting, entry, Option.map_some, clearWait_iterate]
    · refine removeOne_iterate_perm _ _ (same.trans ?_)
      rw [← Wait.recordedWith_cons]
      exact (List.perm_cons_erase recorded).flatMap_right _
  | begins other ns' => exact ⟨ns, waitingOn, (Table.find?_insert_of_ne _ _ other).trans entry, same⟩
  | ends other ns' succeeds => exact ⟨ns, waitingOn, (find?_endLoad ns' succeeds other).trans entry, same⟩

theorem recorded_of_run {load : String} {s s' : Importing} (run : ReflTransGen (ImportStep load) s s')
    (h : s.Recorded load) : s'.Recorded load := by
  induction run with
  | refl => exact h
  | tail _ step ih => exact step.recorded ih

/-- **The graph of waits.**  The search for one of the loads that an import is a part of ends, for every cache, and
finds one if it can be reached from the module asked for.  So a wait that is recorded when nothing was found leaves
a graph without cycles such a graph.  And however several importers record and clear their waits, the list of a
load that goes on has the waits not yet cleared, each as often as it was recorded. -/
theorem wait_graph_acyclic_and_exact (cache : ModuleCache) (path : String) (loading : List String) :
    (∀ answer, SearchEnds cache loading [] [path] answer ↔ cache.waitsOnSelf path loading = answer) ∧
      (cache.waitsOnSelf path loading = true ↔ ∃ load ∈ loading, ReflTransGen cache.Waits path load) ∧
      (cache.Acyclic → cache.waitsOnSelf path loading = false →
        (cache.setWaiting loading path true).Acyclic) ∧
      ∀ load waits s', Importing.Recorded ⟨cache, waits⟩ load →
        ReflTransGen (ImportStep load) ⟨cache, waits⟩ s' → s'.Recorded load :=
  ⟨searchEnds_iff cache path loading, waitsOnSelf_iff, Acyclic.setWaiting,
    fun _ _ _ recorded run => recorded_of_run run recorded⟩

/-- Three loads, of which the second waits for the third. -/
def threeLoads : ModuleCache :=
  [("a", .loading ⟨1⟩ []), ("b", .loading ⟨2⟩ ["c"]), ("c", .loading ⟨3⟩ [])]

theorem threeLoads_waits {load other : String} (wait : threeLoads.Waits load other) : load = "b" ∧ other = "c" := by
  unfold Waits waitedFor threeLoads Table.find? Table.find? Table.find? Table.find? at wait
  by_cases a : "a" = load
  · rw [if_pos a] at wait
    cases wait
  · by_cases b : "b" = load
    · rw [if_neg a, if_pos b] at wait
      exact ⟨b.symm, List.mem_singleton.mp wait⟩
    · rw [if_neg a, if_neg b] at wait
      by_cases c : "c" = load
      · rw [if_pos c] at wait
        cases wait
      · rw [if_neg c] at wait
        cases wait

theorem threeLoads_acyclic : threeLoads.Acyclic := by
  intro path cycle
  obtain ⟨_, out, -⟩ := TransGen.head'_iff.mp cycle
  obtain ⟨_, -, back⟩ := TransGen.tail'_iff.mp cycle
  exact absurd ((threeLoads_waits out).1.symm.trans (threeLoads_waits back).2) (by decide)

/-- Two importers are inside of the load of `a`.  One waits for `b` and one for `c`, and the first is done before
the second. -/
theorem wait_graph_two_importers :
    threeLoads.Acyclic ∧ threeLoads.waitsOnSelf "b" ["a"] = false ∧
      SearchEnds threeLoads ["a"] [] ["b"] false ∧
      (threeLoads.setWaiting ["a"] "b" true).Acyclic ∧
      Importing.Recorded ⟨threeLoads, []⟩ "a" ∧
      Importing.Recorded ⟨((threeLoads.setWaiting ["a"] "b" true).setWaiting ["a"] "c" true).setWaiting ["a"] "b" false,
        [⟨["a"], "c"⟩]⟩ "a" := by
  have begun : Importing.Recorded ⟨threeLoads, []⟩ "a" := ⟨⟨1⟩, [], by decide, List.Perm.refl []⟩
  obtain ⟨ends, -, kept, exact'⟩ := wait_graph_acyclic_and_exact threeLoads "b" ["a"]
  have none : threeLoads.waitsOnSelf "b" ["a"] = false := by decide +kernel
  refine ⟨threeLoads_acyclic, none, (ends false).mpr none, kept threeLoads_acyclic none, begun,
    exact' "a" [] _ begun ?_⟩
  refine .tail (.tail (.tail .refl (.records _ ⟨["a"], "b"⟩)) (.records _ ⟨["a"], "c"⟩)) ?_
  exact @ImportStep.clears "a" ⟨_, [⟨["a"], "c"⟩, ⟨["a"], "b"⟩]⟩ ⟨["a"], "b"⟩ (by decide)

end ModuleCache

end ValueShell
