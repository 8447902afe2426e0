/-
  Worlds that are alike, and what names mean in them.

  Besides the store and the streams a world has the cache of modules, which holds the same entries but for
  the numbers of their namespaces, and the environment and the files, which are the same.  The journal
  is nothing that code can see, so nothing is asked of it.

  In two frames that are alike a name means places that are alike.
-/
import ValueShell.Eval.Call
import ValueShell.Proofs.AlikeStores
import ValueShell.Proofs.AlikeStreams

section Options

variable {α β γ δ : Type} {R : α → β → Prop} {S : γ → δ → Prop} {x : Option α} {y : Option β}

/-- What is found in two places, the first of which comes first. -/
theorem Option.Rel.or {x₂ : Option α} {y₂ : Option β} (h : Option.Rel R x y)
    (h₂ : Option.Rel R x₂ y₂) : Option.Rel R (x.or x₂) (y.or y₂) := by
  cases h with
  | none => exact h₂
  | some hab => exact .some hab

/-- Two lookups one after the other. -/
theorem Option.Rel.bind {k : α → Option γ} {l : β → Option δ} (h : Option.Rel R x y)
    (next : ∀ a b, R a b → Option.Rel S (k a) (l b)) : Option.Rel S (x.bind k) (y.bind l) := by
  cases h with
  | none => exact .none
  | some hab => exact next _ _ hab

theorem Option.Rel.map {k : α → γ} {l : β → δ} (h : Option.Rel R x y)
    (next : ∀ a b, R a b → S (k a) (l b)) : Option.Rel S (x.map k) (y.map l) := by
  cases h with
  | none => exact .none
  | some hab => exact .some (next _ _ hab)

end Options

namespace ValueShell

/-! ## Worlds -/

/-- The same state of a module. -/
inductive ModuleEntry.Alike (ρ : Matching) : ModuleEntry → ModuleEntry → Prop
  | loading {ns ns' : ScopeId} (h : ρ.Scope ns ns') (waitingOn : List String) :
      ModuleEntry.Alike ρ (.loading ns waitingOn) (.loading ns' waitingOn)
  | loaded {ns ns' : ScopeId} (h : ρ.Scope ns ns') :
      ModuleEntry.Alike ρ (.loaded ns) (.loaded ns')

/-- A coarser matching sees less. -/
theorem ModuleEntry.Alike.carry {ρ σ : Matching} (carries : ρ.CarriesTo σ) {e e' : ModuleEntry}
    (h : e.Alike ρ e') : e.Alike σ e' := by
  cases h with
  | loading h waitingOn => exact .loading (carries.scopes h) waitingOn
  | loaded h => exact .loaded (carries.scopes h)

/-- The same answer to an import. -/
inductive ModuleCache.Found.Alike (ρ : Matching) : ModuleCache.Found → ModuleCache.Found → Prop
  | finished {ns ns' : ScopeId} (h : ρ.Scope ns ns') :
      ModuleCache.Found.Alike ρ (.finished ns) (.finished ns')
  | unfinished {ns ns' : ScopeId} (h : ρ.Scope ns ns') :
      ModuleCache.Found.Alike ρ (.unfinished ns) (.unfinished ns')
  | busy : ModuleCache.Found.Alike ρ .busy .busy
  | absent : ModuleCache.Found.Alike ρ .absent .absent

namespace ModuleCache

variable {ρ : Matching} {cache cache' : ModuleCache}

/-- As many wait for the same modules. -/
theorem waitedFor_eq (h : Table.Alike (ModuleEntry.Alike ρ) cache cache') :
    cache.waitedFor = cache'.waitedFor := by
  funext path
  have found := h.find? path
  unfold waitedFor
  generalize Table.find? cache path = entry at found
  generalize Table.find? cache' path = entry' at found
  cases found with
  | none => rfl
  | some hentry => cases hentry <;> rfl

/-- And for the same modules by way of others. -/
theorem allWaitedFor_eq (h : Table.Alike (ModuleEntry.Alike ρ) cache cache') :
    cache.allWaitedFor = cache'.allWaitedFor := by
  unfold allWaitedFor
  induction h with
  | nil => rfl
  | @cons e e' _ _ he _ ih =>
    obtain ⟨path, entry⟩ := e
    obtain ⟨path', entry'⟩ := e'
    rw [List.flatMap_cons, List.flatMap_cons, ih]
    cases he.2 <;> rfl

/-- Who waits for whom does not depend on the namespaces. -/
theorem waitsOnSelf_eq (h : Table.Alike (ModuleEntry.Alike ρ) cache cache') (path : String)
    (loading : List String) : cache.waitsOnSelf path loading = cache'.waitsOnSelf path loading := by
  have search (steps : Nat) (seen pending : List String) :
      search cache loading steps seen pending = search cache' loading steps seen pending := by
    induction steps generalizing seen pending with
    | zero => rfl
    | succ steps ih =>
      cases pending with
      | nil => rfl
      | cons path pending =>
        unfold ModuleCache.search
        rw [waitedFor_eq h]
        split
        · rfl
        · exact ih _ _
  unfold waitsOnSelf
  rw [allWaitedFor_eq h, search]

/-- **The caches answer a request alike.** -/
theorem request_alike (h : Table.Alike (ModuleEntry.Alike ρ) cache cache') (path : String)
    (loading : List String) : (cache.request path loading).Alike ρ (cache'.request path loading) := by
  have found := h.find? path
  unfold request
  rw [waitsOnSelf_eq h]
  generalize Table.find? cache path = entry at found
  generalize Table.find? cache' path = entry' at found
  cases found with
  | none => exact .absent
  | some hentry =>
    cases hentry with
    | loaded hns => exact .finished hns
    | loading hns waitingOn =>
      dsimp only
      split
      · exact .unfinished hns
      · exact .busy

end ModuleCache

/-- **Two worlds that are alike.** -/
structure World.Alike (ρ : Matching) (w w' : World) : Prop where
  store : w.store.Alike ρ w'.store
  streams : w.streams.Alike ρ w'.streams
  modules : Table.Alike (ModuleEntry.Alike ρ) w.modules w'.modules
  environment : w.environment = w'.environment
  files : w.files = w'.files

/-- **The run stays within the matching**: no scope has a number that is too high, and the modules that ran
close over admitted lambdas alone. -/
structure Matching.Within (ρ : Matching) (w : World) : Prop where
  scopes : w.store.scopes.size ≤ ρ.bound
  modules : ∀ path code, .running path code ∈ w.journal → (Code.operation code).Each ρ.Admits

/-! ## Frames -/

/-- Two frames that are alike. -/
structure Frame.Alike (ρ : Matching) (f f' : Frame) : Prop where
  library : f.setting.library = f'.setting.library
  builtins : ρ.Visible f.setting.builtins f'.setting.builtins
  source : ρ.source f.source f'.source
  localScope : ρ.Scope f.localScope f'.localScope
  upScope : ρ.Visible f.upScope f'.upScope
  ports : f.ports.Alike ρ f'.ports
  label : f.label = f'.label
  loading : f.loading = f'.loading

/-- Two frames that are alike in what a module gets from the frame that imports it. -/
structure Frame.AlikeForModules (ρ : Matching) (f f' : Frame) : Prop where
  library : f.setting.library = f'.setting.library
  builtins : ρ.Visible f.setting.builtins f'.setting.builtins
  ports : f.ports.Alike ρ f'.ports
  loading : f.loading = f'.loading

/-- Two places that are alike. -/
inductive Place.Alike (ρ : Matching) : Place → Place → Prop
  | cell {c c' : CellId} (h : ρ.Cell c c') : Place.Alike ρ (.cell c) (.cell c')
  | transient {v v' : Value} (h : v.Alike ρ v') : Place.Alike ρ (.transient v) (.transient v')
  | environment (name : String) : Place.Alike ρ (.environment name) (.environment name)

/-- What matched places hold is alike. -/
theorem World.Alike.valueAt {ρ : Matching} {w w' : World} (h : w.Alike ρ w') {p p' : Place}
    (hp : p.Alike ρ p') : (w.valueAt p).Alike ρ (w'.valueAt p') := by
  cases hp with
  | cell hc => exact h.store.read hc
  | transient hv => exact hv
  | environment name =>
    show (w.environment.read name).Alike ρ (w'.environment.read name)
    rw [h.environment]
    exact .text _

/-! ## Names -/

namespace Store.Alike

variable {ρ : Matching} {s s' : Store}

/-- A cell holds a namespace on both sides or on neither. -/
theorem namespaceIn? (h : s.Alike ρ s') {c c' : CellId} (hc : ρ.Cell c c') :
    Option.Rel ρ.Scope (s.namespaceIn? c) (s'.namespaceIn? c') := by
  have held := h.read hc
  unfold Store.namespaceIn?
  generalize s.read c = v at held
  generalize s'.read c' = v' at held
  cases held with
  | ns hs => exact .some hs
  | _ => exact .none

/-- A namespace of that name is there in both scopes or in neither. -/
theorem namespaceNamed? (h : s.Alike ρ s') {t t' : ScopeId} (ht : ρ.Visible t t')
    (name : List Char) :
    Option.Rel ρ.Scope (s.namespaceNamed? t name) (s'.namespaceNamed? t' name) :=
  (h.find? ht _).bind fun _ _ hc => h.namespaceIn? hc

end Store.Alike

namespace Frame.Alike

variable {ρ : Matching} {f f' : Frame} {s s' : Store}

/-- Failures of alike frames have alike places. -/
theorem site (h : f.Alike ρ f') (span : Span) : (f.site span).Alike ρ (f'.site span) :=
  ⟨h.source, rfl, h.label⟩

/-- For modules, less of the frame matters. -/
theorem forModules (h : f.Alike ρ f') : f.AlikeForModules ρ f' :=
  ⟨h.library, h.builtins, h.ports, h.loading⟩

theorem labelled (h : f.Alike ρ f') (label : String) :
    (f.labelled label).Alike ρ (f'.labelled label) := { h with label := rfl }

theorem withPorts (h : f.Alike ρ f') {p p' : Ports} (hp : p.Alike ρ p') :
    (f.withPorts p).Alike ρ (f'.withPorts p') := { h with ports := hp }

/-- A plain name is found in both frames or in neither. -/
theorem findPlain? (h : f.Alike ρ f') (hs : s.Alike ρ s') (name : String) :
    Option.Rel ρ.Cell (f.findPlain? s name) (f'.findPlain? s' name) :=
  ((hs.find? h.localScope.visible name).or (hs.find? h.upScope name)).or (hs.find? h.builtins name)

/-- So is a namespace under its whole name. -/
theorem wholeNamespace? (h : f.Alike ρ f') (hs : s.Alike ρ s') (ns : List Char) :
    Option.Rel ρ.Scope (f.wholeNamespace? s ns) (f'.wholeNamespace? s' ns) :=
  (h.findPlain? hs _).bind fun _ _ hc => hs.namespaceIn? hc

/-- And so is a chain of namespaces. -/
theorem findNamespace? (h : f.Alike ρ f') (hs : s.Alike ρ s') (ns : List Char) :
    Option.Rel ρ.Scope (f.findNamespace? s ns) (f'.findNamespace? s' ns) := by
  refine (h.wholeNamespace? hs ns).or ?_
  cases splitAtFirst ':' ns with
  | none => exact .none
  | some parts =>
    obtain ⟨outer, inner⟩ := parts
    refine (h.wholeNamespace? hs outer).bind fun start start' hstart => ?_
    -- one step into a namespace for each part
    generalize splitOn ':' inner = names
    induction names generalizing start start' with
    | nil => exact .some hstart
    | cons name names ih =>
      rw [List.foldlM_cons, List.foldlM_cons]
      exact (hs.namespaceNamed? hstart.visible name).bind fun next next' hnext => ih next next' hnext

/-- **A name means the same** in both frames. -/
theorem find? (h : f.Alike ρ f') (hs : s.Alike ρ s') (ns name : String) :
    Option.Rel (Place.Alike ρ) (f.find? s ns name) (f'.find? s' ns name) := by
  unfold Frame.find?
  split
  · exact (h.findPlain? hs name).map fun _ _ hc => .cell hc
  · exact (hs.find? h.localScope.visible name).map fun _ _ hc => .cell hc
  · exact (hs.find? h.upScope name).map fun _ _ hc => .cell hc
  · exact (hs.find? h.builtins name).map fun _ _ hc => .cell hc
  · exact .some (.environment name)
  · split
    · exact .some (.transient (.function (.external _)))
    · exact .none
  · exact (h.findNamespace? hs _).bind fun _ _ hscope =>
      (hs.find? hscope.visible name).map fun _ _ hc => .cell hc

/-- The frame of a call. -/
theorem inside (h : f.Alike ρ f') {c c' : Closure} (hc : c.Alike ρ c') (mode : CallMode)
    {scope scope' : ScopeId} (hscope : ρ.Scope scope scope') :
    (f.inside c mode scope).Alike ρ (f'.inside c' mode scope') := by
  refine { h with source := hc.source, localScope := hscope, upScope := hc.captured.visible, label := ?_ }
  cases mode with
  | command => rfl
  | block => exact h.label

end Frame.Alike

end ValueShell
