/-
  The stages of a pipeline at the same time.

  The evaluator is given a schedule for the stages of a pipeline, of which it knows nothing (`Schedule`).  In a shell
  they are threads, and only some of what they do concerns the others: they pass values on, they share the cache of
  modules, and they end.  Here the stages are parties that take such steps in any order.  Whatever else their code does is left open: it is
  a machine of which nothing is known but what it does next (`Action`).

  The steps of an import are the critical sections of the cache: it takes the namespace of a module, or begins
  to load it, or waits; and who waits is woken when any load has ended, and asks again.
-/
import Mathlib.Logic.Function.Basic
import ValueShell.Module.Cache

namespace ValueShell

/-- What code does next, and how it goes on. -/
inductive Action (σ : Type)
  /-- anything that concerns no other stage -/
  | work (next : σ)
  /-- puts a value out -/
  | put (value : Value) (next : σ)
  /-- takes the next value of the input; there is none if the input has ended -/
  | receive (next : Option Value → σ)
  /-- imports the module at a path; there is no namespace if its load fails -/
  | use (path : String) (next : Option ScopeId → σ)
  | finish (succeeds : Bool)

/-- A load that is going on. -/
structure Load (σ : Type) where
  path : String
  ns : ScopeId
  /-- how the code with the import goes on -/
  resume : Option ScopeId → σ

/-- A stage of a pipeline. -/
structure Stage (σ : Type) where
  /-- the code that runs: that of the innermost load, or of the stage itself -/
  code : σ
  /-- the loads that the code is inside of, innermost first -/
  loads : List (Load σ)
  /-- the values on its input -/
  input : List Value
  /-- the module that its import waits for -/
  waiting : Option String
  /-- some load has ended since it began to wait -/
  woken : Bool
  finished : Bool

namespace Stage

variable {σ : Type}

/-- A stage before its first step. -/
def start (code : σ) (input : List Value) : Stage σ := ⟨code, [], input, none, false, false⟩

/-- The modules that it is loading. -/
def paths (s : Stage σ) : List String := s.loads.map Load.path

end Stage

/-- What the stages of a pipeline run. -/
structure StageCode (σ : Type) where
  /-- what a piece of code does next -/
  action : σ → Action σ
  /-- the code of the module at a path; it fails at once if there is none -/
  moduleCode : String → σ
  /-- the modules whose code the pipeline is part of -/
  outer : List String

/-- **A state of a pipeline of `n` stages.** -/
structure StageState (n : Nat) (σ : Type) where
  stages : Fin n → Stage σ
  cache : ModuleCache
  /-- the next scope for the namespace of a module -/
  nextScope : Nat

namespace StageState

variable {n : Nat} {σ : Type}

/-- The state with one stage replaced. -/
def setStage (s : StageState n σ) (i : Fin n) (stage : Stage σ) : StageState n σ :=
  { s with stages := Function.update s.stages i stage }

/-- The state with a value on the input of the stage after the given one, if there is one. -/
def deliver (s : StageState n σ) (i : Fin n) (value : Value) : StageState n σ :=
  { s with
    stages := fun j =>
      if j.val = i.val + 1 then { s.stages j with input := (s.stages j).input ++ [value] } else s.stages j }

/-- The state with all waiting stages woken. -/
def wakeAll (s : StageState n σ) : StageState n σ :=
  { s with stages := fun j => { s.stages j with woken := true } }

/-- The state with another cache. -/
def setCache (s : StageState n σ) (cache : ModuleCache) : StageState n σ := { s with cache }

/-- The stage neither has ended nor waits for a module. -/
def Runs (s : StageState n σ) (i : Fin n) : Prop :=
  (s.stages i).finished = false ∧ (s.stages i).waiting = none

/-- Nothing more will come on the input of a stage: the stage before it has ended. -/
def InputEnds (s : StageState n σ) (i : Fin n) : Prop :=
  ∀ j : Fin n, j.val + 1 = i.val → (s.stages j).finished = true

end StageState

namespace StageCode

variable {n : Nat} {σ : Type} (p : StageCode σ)

/-- The modules whose code a stage runs inside of, outermost first. -/
def loading (s : Stage σ) : List String := p.outer ++ s.paths.reverse

open StageState in
/-- **One step of one stage.** -/
inductive Step (s : StageState n σ) : StageState n σ → Prop
  | work {i : Fin n} {next : σ} (runs : s.Runs i) (does : p.action (s.stages i).code = .work next) :
      Step s (s.setStage i { s.stages i with code := next })
  | put {i : Fin n} {value : Value} {next : σ} (runs : s.Runs i)
      (does : p.action (s.stages i).code = .put value next) :
      Step s ((s.setStage i { s.stages i with code := next }).deliver i value)
  | receive {i : Fin n} {value : Value} {rest : List Value} {next : Option Value → σ} (runs : s.Runs i)
      (does : p.action (s.stages i).code = .receive next) (input : (s.stages i).input = value :: rest) :
      Step s (s.setStage i { s.stages i with code := next (some value), input := rest })
  | inputEnded {i : Fin n} {next : Option Value → σ} (runs : s.Runs i)
      (does : p.action (s.stages i).code = .receive next) (input : (s.stages i).input = [])
      (ends : s.InputEnds i) :
      Step s (s.setStage i { s.stages i with code := next none })
  | takeModule {i : Fin n} {path : String} {ns : ScopeId} {next : Option ScopeId → σ} (runs : s.Runs i)
      (does : p.action (s.stages i).code = .use path next)
      (found : s.cache.request path (p.loading (s.stages i)) = .finished ns ∨
        s.cache.request path (p.loading (s.stages i)) = .unfinished ns) :
      Step s (s.setStage i { s.stages i with code := next (some ns) })
  | waitForModule {i : Fin n} {path : String} {next : Option ScopeId → σ} (runs : s.Runs i)
      (does : p.action (s.stages i).code = .use path next)
      (found : s.cache.request path (p.loading (s.stages i)) = .busy) :
      Step s ((s.setStage i { s.stages i with waiting := some path, woken := false }).setCache
        (s.cache.setWaiting (p.loading (s.stages i)) path true))
  | askAgain {i : Fin n} {path : String} (unfinished : (s.stages i).finished = false)
      (waits : (s.stages i).waiting = some path) (woken : (s.stages i).woken = true) :
      Step s ((s.setStage i { s.stages i with waiting := none }).setCache
        (s.cache.setWaiting (p.loading (s.stages i)) path false))
  | beginLoad {i : Fin n} {path : String} {next : Option ScopeId → σ} (runs : s.Runs i)
      (does : p.action (s.stages i).code = .use path next)
      (found : s.cache.request path (p.loading (s.stages i)) = .absent) :
      Step s { (s.setStage i { s.stages i with
          code := p.moduleCode path
          loads := ⟨path, ⟨s.nextScope⟩, next⟩ :: (s.stages i).loads }).setCache
        (Table.insert s.cache path (.loading ⟨s.nextScope⟩ [])) with nextScope := s.nextScope + 1 }
  | endLoad {i : Fin n} {succeeds : Bool} {load : Load σ} {rest : List (Load σ)} (runs : s.Runs i)
      (does : p.action (s.stages i).code = .finish succeeds) (loads : (s.stages i).loads = load :: rest) :
      Step s ((s.setStage i { s.stages i with
          code := load.resume (if succeeds then some load.ns else none), loads := rest }).setCache
        (s.cache.endLoad load.path load.ns succeeds)).wakeAll
  | finish {i : Fin n} {succeeds : Bool} (runs : s.Runs i)
      (does : p.action (s.stages i).code = .finish succeeds) (loads : (s.stages i).loads = []) :
      Step s (s.setStage i { s.stages i with finished := true })

/-- The stages before their first steps.  The modules around the pipeline are being loaded, and nothing else
is. -/
structure Starts (s : StageState n σ) : Prop where
  fresh : ∀ i, ∃ code input, s.stages i = .start code input
  distinct : p.outer.Nodup
  loading : ∀ path, s.cache.IsLoading path ↔ path ∈ p.outer
  still : ∀ path ns waitingOn, Table.find? s.cache path = some (.loading ns waitingOn) → waitingOn = []

/-- The states that steps of the stages lead to, in any order. -/
inductive Reaches : StageState n σ → Prop
  | start {s : StageState n σ} (starts : p.Starts s) : Reaches s
  | step {s s' : StageState n σ} (before : Reaches s) (one : p.Step s s') : Reaches s'

/-- The stage is blocked at its input: nothing is there, and more may come. -/
def AwaitsInput (s : StageState n σ) (i : Fin n) : Prop :=
  s.Runs i ∧ (∃ next, p.action (s.stages i).code = .receive next) ∧ (s.stages i).input = [] ∧ ¬ s.InputEnds i

end StageCode

namespace StageState

variable {n : Nat} {σ : Type}

/-- The stage is blocked in an import: no load has ended since it began to wait. -/
def AwaitsModule (s : StageState n σ) (i : Fin n) (path : String) : Prop :=
  (s.stages i).finished = false ∧ (s.stages i).waiting = some path ∧ (s.stages i).woken = false

end StageState

/-- **A deadlock**: some stage has not ended, and all stages that have not are blocked. -/
def StageCode.Deadlock {n : Nat} {σ : Type} (p : StageCode σ) (s : StageState n σ) : Prop :=
  (∃ i, (s.stages i).finished = false) ∧
    ∀ i, (s.stages i).finished = false → p.AwaitsInput s i ∨ ∃ path, s.AwaitsModule i path

end ValueShell
