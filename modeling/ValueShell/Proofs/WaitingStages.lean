/-
  Stages that wait for modules.

  Who loads what, and who waits for whom, is kept in order by the cache (`Orderly`): every load is part of one
  stage, a stage that waits has recorded this with all its loads, and the waits have no cycle.  This is
  an invariant of every step of every stage.

  So stages do not deadlock by waiting for each other's modules: where some stages wait, one of
  them waits for a load that goes on in a stage that does not.  What is left is a stage that is inside a load and
  blocked at its input (`deadlock_inside_load`).  The record of waits knows nothing of inputs, and there the
  order of the cache is of no help: the stage before may wait for that very load
  (`deadlock_of_counting_module`).
-/
import Mathlib.Data.List.Nodup
import ValueShell.Module.Stages
import ValueShell.Proofs.WaitSearch

namespace ValueShell

open ModuleCache

variable {n : Nat} {σ : Type} {p : StageCode σ} {s s' : StageState n σ}

namespace StageState

theorem stages_setStage (s : StageState n σ) (i j : Fin n) (stage : Stage σ) :
    (s.setStage i stage).stages j = if j = i then stage else s.stages j := Function.update_apply ..

end StageState

namespace StageCode

/-- **The loads and the waits are in order.** -/
structure Orderly (p : StageCode σ) (s : StageState n σ) : Prop where
  /-- no stage is inside a load twice -/
  distinct : ∀ i, (p.loading (s.stages i)).Nodup
  /-- no load is part of two stages -/
  apart : ∀ i j path, path ∈ (s.stages i).paths → path ∈ (s.stages j).paths → i = j
  loading : ∀ i path, path ∈ p.loading (s.stages i) → s.cache.IsLoading path
  /-- every load goes on somewhere -/
  owned : ∀ path, s.cache.IsLoading path → path ∈ p.outer ∨ ∃ i, path ∈ (s.stages i).paths
  /-- who waits has recorded it with its loads -/
  recorded : ∀ i path other, path ∈ (s.stages i).paths → (s.stages i).waiting = some other →
    s.cache.Waits path other
  /-- who waits and was not woken, waits for a load of another stage -/
  awaited : ∀ i path, s.AwaitsModule i path → path ∉ p.loading (s.stages i) ∧ s.cache.IsLoading path
  acyclic : s.cache.Acyclic
  /-- who has ended loads nothing -/
  ended : ∀ i, (s.stages i).finished = true → (s.stages i).loads = []

section Steps

variable {i : Fin n} {path : String}

theorem mem_loading {stage : Stage σ} {path : String} :
    path ∈ p.loading stage ↔ path ∈ p.outer ∨ path ∈ stage.paths := by
  rw [StageCode.loading, List.mem_append, List.mem_reverse]

/-- The loads around the pipeline are part of no stage. -/
theorem Orderly.not_outer (h : Orderly p s) (mem : path ∈ (s.stages i).paths) : path ∉ p.outer := fun outer =>
  (List.nodup_append.mp (h.distinct i)).2.2 path outer path (List.mem_reverse.mpr mem) rfl

theorem Orderly.not_loading (h : Orderly p s) {j : Fin n} (mem : path ∈ (s.stages j).paths) (other : j ≠ i) :
    path ∉ p.loading (s.stages i) := fun inside => by
  rcases mem_loading.mp inside with outer | here
  · exact h.not_outer mem outer
  · exact other (h.apart j i path mem here)

/-! ## Steps that begin and end no load -/

/-- **What a step leaves in order**: every stage keeps its loads, and a stage has ended only if it has none. -/
structure KeepsLoads (s s' : StageState n σ) : Prop where
  loads : ∀ j, (s'.stages j).loads = (s.stages j).loads
  ended : ∀ j, (s'.stages j).finished = true → (s.stages j).finished = true ∨ (s.stages j).loads = []
  loading : ∀ path, s'.cache.IsLoading path ↔ s.cache.IsLoading path

theorem Orderly.of_keepsLoads (h : Orderly p s) (keeps : KeepsLoads s s')
    (recorded : ∀ i path other, path ∈ (s.stages i).paths → (s'.stages i).waiting = some other →
      s'.cache.Waits path other)
    (awaited : ∀ i path, s'.AwaitsModule i path → path ∉ p.loading (s.stages i) ∧ s.cache.IsLoading path)
    (acyclic : s'.cache.Acyclic) : Orderly p s' := by
  have paths (j : Fin n) : (s'.stages j).paths = (s.stages j).paths := by
    rw [Stage.paths, Stage.paths, keeps.loads j]
  have inside (j : Fin n) : p.loading (s'.stages j) = p.loading (s.stages j) := by
    rw [StageCode.loading, StageCode.loading, paths j]
  refine ⟨fun i => ?_, fun i j path hi hj => ?_, fun i path hi => ?_, fun path entry => ?_,
    fun i path other hi waits => ?_, fun i path wait => ?_, acyclic, fun i ended => ?_⟩
  · rw [inside]
    exact h.distinct i
  · rw [paths] at hi hj
    exact h.apart i j path hi hj
  · rw [inside] at hi
    exact (keeps.loading path).mpr (h.loading i path hi)
  · simp only [paths]
    exact h.owned path ((keeps.loading path).mp entry)
  · rw [paths] at hi
    exact recorded i path other hi waits
  · rw [inside, keeps.loading]
    exact awaited i path wait
  · rw [keeps.loads]
    exact (keeps.ended i ended).elim (h.ended i) id

/-- A step that does not touch the cache, and no wait. -/
theorem Orderly.of_same (h : Orderly p s) (cache : s'.cache = s.cache)
    (loads : ∀ j, (s'.stages j).loads = (s.stages j).loads)
    (waits : ∀ j, (s'.stages j).waiting = (s.stages j).waiting ∧ (s'.stages j).woken = (s.stages j).woken)
    (ended : ∀ j, (s'.stages j).finished = (s.stages j).finished ∨
      (s'.stages j).finished = true ∧ (s.stages j).loads = []) : Orderly p s' := by
  refine h.of_keepsLoads ⟨loads, fun j hj => ?_, fun path => by rw [cache]⟩ (fun i path other hi wait => ?_)
    (fun i path wait => ?_) (by rw [cache]; exact h.acyclic)
  · rcases ended j with same | ⟨-, none⟩
    · exact .inl (same ▸ hj)
    · exact .inr none
  · rw [cache]
    exact h.recorded i path other hi ((waits i).1 ▸ wait)
  · obtain ⟨unfinished, wait, asleep⟩ := wait
    rw [(waits i).1] at wait
    rw [(waits i).2] at asleep
    refine h.awaited i path ⟨?_, wait, asleep⟩
    rcases ended i with same | ⟨finished, -⟩
    · exact same ▸ unfinished
    · rw [finished] at unfinished
      exact nomatch unfinished

/-- A step of one stage that does so. -/
theorem Orderly.setStage (h : Orderly p s) {stage : Stage σ} (loads : stage.loads = (s.stages i).loads)
    (waiting : stage.waiting = (s.stages i).waiting) (woken : stage.woken = (s.stages i).woken)
    (ended : stage.finished = (s.stages i).finished ∨ stage.finished = true ∧ (s.stages i).loads = []) :
    Orderly p (s.setStage i stage) := by
  refine h.of_same rfl (fun j => ?_) (fun j => ?_) (fun j => ?_) <;> rw [StageState.stages_setStage]
  · split
    · next same => exact same ▸ loads
    · rfl
  · split
    · next same => exact same ▸ ⟨waiting, woken⟩
    · exact ⟨rfl, rfl⟩
  · split
    · next same => exact same ▸ ended
    · exact .inl rfl

theorem Orderly.deliver (h : Orderly p s) (i : Fin n) (value : Value) : Orderly p (s.deliver i value) := by
  have stages (j : Fin n) : ∃ input, (s.deliver i value).stages j = { s.stages j with input } := by
    show ∃ input, (if j.val = i.val + 1 then _ else s.stages j) = { s.stages j with input }
    split
    · exact ⟨_, rfl⟩
    · exact ⟨_, rfl⟩
  refine h.of_same rfl (fun j => ?_) (fun j => ?_) (fun j => ?_) <;> obtain ⟨input, same⟩ := stages j <;> rw [same]
  · exact ⟨rfl, rfl⟩
  · exact .inl rfl

/-- What an import finds that has to wait. -/
theorem busy_iff {cache : ModuleCache} {path : String} {loading : List String}
    (found : cache.request path loading = .busy) :
    cache.IsLoading path ∧ cache.waitsOnSelf path loading = false := by
  unfold ModuleCache.request at found
  cases entry : Table.find? cache path with
  | none => rw [entry] at found; exact nomatch found
  | some e =>
    rw [entry] at found
    cases e with
    | loaded ns => exact nomatch found
    | loading ns waitingOn =>
      dsimp only at found
      split at found
      · exact nomatch found
      · next waits => exact ⟨⟨ns, waitingOn, entry⟩, Bool.not_eq_true _ ▸ waits⟩

/-- A stage begins to wait. -/
theorem Orderly.wait (h : Orderly p s) (found : s.cache.request path (p.loading (s.stages i)) = .busy) :
    Orderly p ((s.setStage i { s.stages i with waiting := some path, woken := false }).setCache
      (s.cache.setWaiting (p.loading (s.stages i)) path true)) := by
  obtain ⟨entry, waits⟩ := busy_iff found
  have apart : path ∉ p.loading (s.stages i) := fun mem => by
    rw [waitsOnSelf_of_reaches mem .refl] at waits
    exact nomatch waits
  have stages (j : Fin n) : ((s.setStage i { s.stages i with waiting := some path, woken := false }).setCache
      (s.cache.setWaiting (p.loading (s.stages i)) path true)).stages j =
      if j = i then { s.stages i with waiting := some path, woken := false } else s.stages j :=
    StageState.stages_setStage ..
  refine h.of_keepsLoads ⟨fun j => ?_, fun j ended => ?_, fun other => ?_⟩
    (fun j load other mem waiting => ?_) (fun j other wait => ?_) (h.acyclic.setWaiting waits)
  · rw [stages]
    split
    · next same => rw [same]
    · rfl
  · rw [stages] at ended
    split at ended
    · next same => exact .inl (same ▸ ended)
    · exact .inl ended
  · exact isLoading_setWaiting path true other
  · rw [stages] at waiting
    split at waiting
    · next same =>
      subst same
      obtain rfl := Option.some.inj waiting
      exact waits_recorded (mem_loading.mpr (.inr mem)) (h.loading _ _ (mem_loading.mpr (.inr mem))) _
    · next other' =>
      exact (waits_setWaiting_of_not_mem path true (h.not_loading mem other')).mpr
        (h.recorded j load other mem waiting)
  · obtain ⟨unfinished, waiting, asleep⟩ := wait
    rw [stages] at unfinished waiting asleep
    split at waiting
    · next same =>
      subst same
      obtain rfl := Option.some.inj waiting
      exact ⟨apart, entry⟩
    · next other' =>
      rw [if_neg other'] at unfinished asleep
      exact h.awaited j other ⟨unfinished, waiting, asleep⟩

/-- A stage that was woken asks again. -/
theorem Orderly.ask (h : Orderly p s) (path : String) :
    Orderly p ((s.setStage i { s.stages i with waiting := none }).setCache
      (s.cache.setWaiting (p.loading (s.stages i)) path false)) := by
  have stages (j : Fin n) : ((s.setStage i { s.stages i with waiting := none }).setCache
      (s.cache.setWaiting (p.loading (s.stages i)) path false)).stages j =
      if j = i then { s.stages i with waiting := none } else s.stages j := StageState.stages_setStage ..
  refine h.of_keepsLoads ⟨fun j => ?_, fun j ended => ?_, fun other => ?_⟩
    (fun j load other mem waiting => ?_) (fun j other wait => ?_)
    (h.acyclic.mono fun _ _ => waits_of_cleared)
  · rw [stages]
    split
    · next same => rw [same]
    · rfl
  · rw [stages] at ended
    split at ended
    · next same => exact .inl (same ▸ ended)
    · exact .inl ended
  · exact isLoading_setWaiting path false other
  · rw [stages] at waiting
    split at waiting
    · exact nomatch waiting
    · next other' =>
      exact (waits_setWaiting_of_not_mem path false (h.not_loading mem other')).mpr
        (h.recorded j load other mem waiting)
  · obtain ⟨unfinished, waiting, asleep⟩ := wait
    rw [stages] at unfinished waiting asleep
    split at waiting
    · exact nomatch waiting
    · next other' =>
      rw [if_neg other'] at unfinished asleep
      exact h.awaited j other ⟨unfinished, waiting, asleep⟩

/-! ## The two ends of a load -/

/-- A stage begins to load a module that is not being loaded. -/
theorem Orderly.begin (h : Orderly p s) (new : ¬ s.cache.IsLoading path) (idle : s.Runs i) {code : σ}
    {load : Load σ} (named : load.path = path) {ns : ScopeId}
    (stages : ∀ j, s'.stages j =
      if j = i then { s.stages i with code, loads := load :: (s.stages i).loads } else s.stages j)
    (cache : s'.cache = Table.insert s.cache path (.loading ns [])) : Orderly p s' := by
  have here : s'.stages i = { s.stages i with code, loads := load :: (s.stages i).loads } := by
    rw [stages, if_pos rfl]
  have there {j : Fin n} (other : j ≠ i) : s'.stages j = s.stages j := by rw [stages, if_neg other]
  have fresh (j : Fin n) : path ∉ p.loading (s.stages j) := fun mem => new (h.loading j path mem)
  have paths : (s'.stages i).paths = path :: (s.stages i).paths := by
    rw [Stage.paths, here, List.map_cons, named]
    rfl
  have loads (other : String) : s'.cache.IsLoading other ↔ path = other ∨ s.cache.IsLoading other := by
    rw [cache]
    exact isLoading_begun
  have waits {load other : String} (apart : path ≠ load) (wait : s.cache.Waits load other) :
      s'.cache.Waits load other := by
    rw [cache]
    exact (waits_congr (Table.find?_insert_of_ne _ _ apart)).mpr wait
  have mem_paths {j : Fin n} {other : String} (mem : other ∈ (s'.stages j).paths) :
      j = i ∧ other = path ∨ other ∈ (s.stages j).paths := by
    by_cases same : j = i
    · subst same
      rw [paths] at mem
      exact (List.mem_cons.mp mem).imp_left fun eq => ⟨rfl, eq⟩
    · rw [there same] at mem
      exact .inr mem
  refine ⟨fun j => ?_, fun j k other hj hk => ?_, fun j other mem => ?_, fun other entry => ?_,
    fun j other waited mem waiting => ?_, fun j other wait => ?_, ?_, fun j ended => ?_⟩
  · by_cases same : j = i
    · subst same
      rw [StageCode.loading, paths, List.reverse_cons, ← List.append_assoc]
      refine List.nodup_append.mpr ⟨h.distinct j, List.nodup_singleton _, fun a ha b hb => ?_⟩
      rw [List.mem_singleton.mp hb]
      rintro rfl
      exact fresh j ha
    · rw [there same]
      exact h.distinct j
  · obtain ⟨rfl, rfl⟩ | hj' := mem_paths hj
    · obtain ⟨same, -⟩ | hk' := mem_paths hk
      · exact same.symm
      · exact absurd (mem_loading.mpr (.inr hk')) (fresh k)
    · obtain ⟨-, rfl⟩ | hk' := mem_paths hk
      · exact absurd (mem_loading.mpr (.inr hj')) (fresh j)
      · exact h.apart j k other hj' hk'
  · rw [loads]
    obtain outer | mem := mem_loading.mp mem
    · exact .inr (h.loading j other (mem_loading.mpr (.inl outer)))
    · obtain ⟨-, rfl⟩ | mem := mem_paths mem
      · exact .inl rfl
      · exact .inr (h.loading j other (mem_loading.mpr (.inr mem)))
  · obtain rfl | entry := (loads other).mp entry
    · exact .inr ⟨i, paths ▸ List.mem_cons_self⟩
    · obtain outer | ⟨j, mem⟩ := h.owned other entry
      · exact .inl outer
      · refine .inr ⟨j, ?_⟩
        by_cases same : j = i
        · subst same
          rw [paths]
          exact List.mem_cons_of_mem _ mem
        · rw [there same]
          exact mem
  · by_cases same : j = i
    · subst same
      rw [here] at waiting
      exact nomatch idle.2.symm.trans waiting
    · rw [there same] at mem waiting
      refine waits ?_ (h.recorded j other waited mem waiting)
      rintro rfl
      exact fresh j (mem_loading.mpr (.inr mem))
  · obtain ⟨unfinished, waiting, asleep⟩ := wait
    by_cases same : j = i
    · subst same
      rw [here] at waiting
      exact nomatch idle.2.symm.trans waiting
    · rw [there same] at unfinished waiting asleep ⊢
      obtain ⟨apart, entry⟩ := h.awaited j other ⟨unfinished, waiting, asleep⟩
      exact ⟨apart, (loads other).mpr (.inr entry)⟩
  · rw [cache]
    exact h.acyclic.mono fun _ _ wait => (waits_begun wait).2
  · by_cases same : j = i
    · subst same
      rw [here] at ended
      exact nomatch idle.1.symm.trans ended
    · rw [there same] at ended ⊢
      exact h.ended j ended

/-- A stage ends its innermost load, and wakes those that wait. -/
theorem Orderly.finish (h : Orderly p s) (idle : s.Runs i) {code : σ} {load : Load σ} {rest : List (Load σ)}
    (loads : (s.stages i).loads = load :: rest) {succeeds : Bool}
    (stages : ∀ j, s'.stages j =
      { (if j = i then { s.stages i with code, loads := rest } else s.stages j) with woken := true })
    (cache : s'.cache = s.cache.endLoad load.path load.ns succeeds) : Orderly p s' := by
  have paths : (s.stages i).paths = load.path :: (s'.stages i).paths := by
    rw [Stage.paths, loads, Stage.paths, stages, if_pos rfl]
    rfl
  have there {j : Fin n} (other : j ≠ i) : (s'.stages j).paths = (s.stages j).paths := by
    rw [Stage.paths, stages, if_neg other]
    rfl
  have waiting (j : Fin n) : (s'.stages j).waiting = (s.stages j).waiting := by
    rw [stages]
    split
    · next same => rw [same]
    · rfl
  have finished (j : Fin n) : (s'.stages j).finished = (s.stages j).finished := by
    rw [stages]
    split
    · next same => rw [same]
    · rfl
  have mem_paths {j : Fin n} {other : String} (mem : other ∈ (s'.stages j).paths) :
      other ∈ (s.stages j).paths := by
    by_cases same : j = i
    · subst same
      rw [paths]
      exact List.mem_cons_of_mem _ mem
    · exact there same ▸ mem
  -- the load that ends is part of nothing any more
  have gone {j : Fin n} {other : String} (mem : other ∈ (s'.stages j).paths) : load.path ≠ other := by
    rintro rfl
    have ended : load.path ∈ (s.stages i).paths := paths ▸ List.mem_cons_self
    obtain rfl : j = i := h.apart j i _ (mem_paths mem) ended
    have once := (List.nodup_append.mp (h.distinct j)).2.1
    rw [paths, List.nodup_reverse] at once
    exact (List.nodup_cons.mp once).1 mem
  have remains (other : String) : s'.cache.IsLoading other ↔ load.path ≠ other ∧ s.cache.IsLoading other := by
    rw [cache]
    exact isLoading_ended
  refine ⟨fun j => ?_, fun j k other hj hk => h.apart j k other (mem_paths hj) (mem_paths hk),
    fun j other mem => ?_, fun other entry => ?_, fun j other waited mem wait => ?_,
    fun j other wait => ?_, ?_, fun j ended => ?_⟩
  · refine (h.distinct j).sublist (List.Sublist.append_left (List.Sublist.reverse ?_) _)
    by_cases same : j = i
    · subst same
      rw [paths]
      exact List.sublist_cons_self _ _
    · rw [there same]
  · rw [remains]
    obtain outer | mem := mem_loading.mp mem
    · refine ⟨?_, h.loading j other (mem_loading.mpr (.inl outer))⟩
      rintro rfl
      exact h.not_outer (paths ▸ List.mem_cons_self) outer
    · exact ⟨gone mem, h.loading j other (mem_loading.mpr (.inr (mem_paths mem)))⟩
  · obtain ⟨different, entry⟩ := (remains other).mp entry
    obtain outer | ⟨j, mem⟩ := h.owned other entry
    · exact .inl outer
    · refine .inr ⟨j, ?_⟩
      by_cases same : j = i
      · subst same
        rw [paths] at mem
        exact (List.mem_cons.mp mem).resolve_left different.symm
      · exact (there same).symm ▸ mem
  · rw [waiting] at wait
    have old := h.recorded j other waited (mem_paths mem) wait
    rw [cache]
    exact (waits_congr (find?_endLoad _ _ (gone mem))).mpr old
  · obtain ⟨-, -, asleep⟩ := wait
    rw [stages] at asleep
    exact nomatch asleep
  · rw [cache]
    exact h.acyclic.mono fun _ _ => waits_ended
  · rw [finished] at ended
    have none := h.ended j ended
    by_cases same : j = i
    · subst same
      rw [loads] at none
      exact nomatch none
    · rw [stages, if_neg same]
      exact none

end Steps

/-! ## All steps -/

/-- **Every step of every stage keeps the order.** -/
theorem Orderly.step (h : Orderly p s) (one : p.Step s s') : Orderly p s' := by
  cases one with
  | work | receive | inputEnded | takeModule => exact h.setStage rfl rfl rfl (.inl rfl)
  | @put i value next =>
    have kept : Orderly p (s.setStage i { s.stages i with code := next }) := h.setStage rfl rfl rfl (.inl rfl)
    exact kept.deliver i value
  | waitForModule _ _ found => exact h.wait found
  | @askAgain i path _ _ _ => exact h.ask path
  | @beginLoad i path next runs _ found =>
    refine h.begin (fun entry => ?_) runs rfl (fun j => StageState.stages_setStage ..) rfl
    obtain ⟨ns, waitingOn, entry⟩ := entry
    rw [ModuleCache.request, entry] at found
    dsimp only at found
    split at found <;> exact nomatch found
  | @endLoad i succeeds load rest runs _ loads =>
    have stages (j : Fin n) := s.stages_setStage i j
      { s.stages i with code := load.resume (if succeeds then some load.ns else none), loads := rest }
    exact h.finish runs loads (fun j => congrArg (fun stage : Stage σ => { stage with woken := true }) (stages j)) rfl
  | finish _ _ loads => exact h.setStage rfl rfl rfl (.inr ⟨rfl, loads⟩)

/-- Before the first step the modules around the pipeline are being loaded, and wait for nothing. -/
theorem Orderly.start (h : p.Starts s) : Orderly p s := by
  have fresh (i : Fin n) : (s.stages i).paths = [] ∧ (s.stages i).waiting = none ∧
      (s.stages i).finished = false := by
    obtain ⟨code, input, same⟩ := h.fresh i
    rw [same]
    exact ⟨rfl, rfl, rfl⟩
  have inside (i : Fin n) : p.loading (s.stages i) = p.outer := by
    rw [StageCode.loading, (fresh i).1, List.reverse_nil, List.append_nil]
  have still {load other : String} : ¬ s.cache.Waits load other := fun wait => by
    obtain ⟨ns, waitingOn, entry⟩ := isLoading_of_waits wait
    rw [Waits, waitedFor, entry, h.still load ns waitingOn entry] at wait
    cases wait
  refine ⟨fun i => ?_, fun i j path mem _ => ?_, fun i path mem => ?_, fun path entry => ?_,
    fun i path other mem _ => ?_, fun i path wait => ?_, fun path cycle => ?_, fun i ended => ?_⟩
  · rw [inside]
    exact h.distinct
  · rw [(fresh i).1] at mem
    cases mem
  · rw [inside] at mem
    exact (h.loading path).mpr mem
  · exact .inl ((h.loading path).mp entry)
  · rw [(fresh i).1] at mem
    cases mem
  · cases (fresh i).2.1.symm.trans wait.2.1
  · obtain ⟨_, wait, -⟩ := Relation.TransGen.head'_iff.mp cycle
    exact still wait
  · cases (fresh i).2.2.symm.trans ended

theorem Reaches.orderly (h : p.Reaches s) : Orderly p s := by
  induction h with
  | start starts => exact .start starts
  | step _ one ih => exact ih.step one

/-! ## Deadlocks -/

/-- A stage whose input has not ended has one before it. -/
theorem exists_before {i : Fin n} (more : ¬ s.InputEnds i) :
    ∃ j : Fin n, j.val + 1 = i.val ∧ (s.stages j).finished = false := by
  by_contra none
  refine more fun j before => ?_
  cases ended : (s.stages j).finished with
  | true => rfl
  | false => exact absurd ⟨j, before, ended⟩ none

/-- Where all are blocked, the first stage that has not ended waits for a module. -/
theorem Deadlock.exists_waiting (deadlock : p.Deadlock s) : ∃ i path, s.AwaitsModule i path := by
  obtain ⟨⟨i, unfinished⟩, blocked⟩ := deadlock
  -- by induction on the number of stages before it
  generalize before : i.val = k
  induction k generalizing i with
  | zero =>
    obtain ⟨-, -, -, more⟩ | ⟨path, waits⟩ := blocked i unfinished
    · obtain ⟨j, next, -⟩ := exists_before more
      omega
    · exact ⟨i, path, waits⟩
  | succ k ih =>
    obtain ⟨-, -, -, more⟩ | ⟨path, waits⟩ := blocked i unfinished
    · obtain ⟨j, next, unfinished'⟩ := exists_before more
      exact ih j unfinished' (by omega)
    · exact ⟨i, path, waits⟩

/-- The load that a stage waits for goes on in a stage. -/
theorem Orderly.exists_owner (h : Orderly p s) {i : Fin n} {path : String} (waits : s.AwaitsModule i path) :
    ∃ j, path ∈ (s.stages j).paths := by
  obtain ⟨apart, entry⟩ := h.awaited i path waits
  exact (h.owned path entry).resolve_left fun outer => apart (mem_loading.mpr (.inl outer))

/-- **A deadlock is inside a load.**  If all stages that have not ended are blocked, one of them is inside the load
of a module and blocked at its input. -/
theorem deadlock_inside_load (reached : p.Reaches s) (deadlock : p.Deadlock s) :
    ∃ i, (s.stages i).loads ≠ [] ∧ p.AwaitsInput s i := by
  have h := reached.orderly
  obtain ⟨i, path, waits⟩ := deadlock.exists_waiting
  -- otherwise every load that goes on in a stage waits for another such load, and that is a cycle
  have loading : ∀ path, (∃ j, path ∈ (s.stages j).paths) → s.cache.IsLoading path :=
    fun path ⟨j, mem⟩ => h.loading j path (mem_loading.mpr (.inr mem))
  obtain ⟨last, ⟨j, mem⟩, none⟩ := h.acyclic.exists_last loading (h.exists_owner waits)
  have loads : (s.stages j).loads ≠ [] := fun empty => by
    rw [Stage.paths, empty] at mem
    exact nomatch mem
  have unfinished : (s.stages j).finished = false := by
    cases ended : (s.stages j).finished with
    | true => exact absurd (h.ended j ended) loads
    | false => rfl
  obtain input | ⟨other, waits⟩ := deadlock.2 j unfinished
  · exact ⟨j, loads, input⟩
  · exact absurd (h.recorded j last other mem waits.2.1) (none other (h.exists_owner waits))

end StageCode

/-! ## Two stages and a module that counts its input -/

namespace StageState

/-- Code that imports the module `m`, code that counts the values on its input, and code that has done so. -/
inductive Counting
  | importing
  | counting
  | done

/-- Stages that import a module, which counts its input. -/
def Counting.code : StageCode Counting where
  action
    | importing => .use "m" fun _ => done
    | counting => .receive fun value => if value.isSome then counting else done
    | done => .finish true
  moduleCode _ := counting
  outer := []

/-- Two such stages before their first steps. -/
def Counting.initial : StageState 2 Counting := ⟨fun _ => .start importing [], [], 0⟩

/-- The two stages when the second has begun the load and the first waits for it. -/
def Counting.stuck : StageState 2 Counting where
  stages i :=
    if i = 0 then { Stage.start importing [] with waiting := some "m" }
    else { Stage.start counting [] with loads := [⟨"m", ⟨0⟩, fun _ => done⟩] }
  cache := [("m", .loading ⟨0⟩ [])]
  nextScope := 1

theorem Counting.reaches_stuck : Counting.code.Reaches Counting.stuck := by
  have starts : Counting.code.Starts Counting.initial :=
    { fresh := fun _ => ⟨importing, [], rfl⟩
      distinct := .nil
      loading := fun _ => ⟨fun ⟨_, _, entry⟩ => (nomatch entry), fun outer => (nomatch outer)⟩
      still := fun _ _ _ entry => (nomatch entry) }
  have loads := StageCode.Reaches.step (.start starts) (.beginLoad (i := 1) ⟨rfl, rfl⟩ rfl rfl)
  have waits := loads.step (.waitForModule (i := 0) ⟨rfl, rfl⟩ rfl rfl)
  refine cast (congrArg _ ?_) waits
  refine congrArg₂ (fun stages cache => StageState.mk stages cache 1) (funext fun i => ?_) rfl
  match i with
  | 0 => rfl
  | 1 => rfl

theorem Counting.deadlock_stuck : Counting.code.Deadlock Counting.stuck := by
  refine ⟨⟨0, rfl⟩, fun i _ => ?_⟩
  match i with
  | 0 => exact .inr ⟨"m", rfl, rfl, rfl⟩
  | 1 => exact .inl ⟨⟨rfl, rfl⟩, ⟨_, rfl⟩, rfl, fun ends => nomatch ends 0 rfl⟩

end StageState

namespace StageCode

open StageState.Counting

/-- In the deadlock of two stages that import a module that counts its input, the second is inside the load. -/
theorem stuck_inside_load :
    ∃ i, (StageState.Counting.stuck.stages i).loads ≠ [] ∧
      StageState.Counting.code.AwaitsInput StageState.Counting.stuck i :=
  deadlock_inside_load reaches_stuck deadlock_stuck

/-- **Stages can deadlock**: the second begins to load a module that counts its input, and the first waits for
that load. -/
theorem deadlock_of_counting_module :
    ∃ (p : StageCode StageState.Counting) (s : StageState 2 StageState.Counting), p.Reaches s ∧ p.Deadlock s :=
  ⟨StageState.Counting.code, _, reaches_stuck, deadlock_stuck⟩

end StageCode

end ValueShell
