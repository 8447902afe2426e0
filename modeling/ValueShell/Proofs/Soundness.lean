/-
  The world as scoped code finds it.

  The scope check knows names, the evaluator scopes.  Three statements tie them together.

    * `Frame.Covers f t`: the names of the table `t` are bound where the frame `f` looks them up; those of
      the innermost scope locally or above, those of the scopes around it above.
    * `Closure.Founded`: the scope that a closure captured binds the names that its lambda was compiled
      with.
    * `World.Sound`: every closure in a variable or in a queue is founded, the builtins are there and
      read-only, and no fault so far reports a variable that the scope check vouches for.

  A captured scope is a copy, and it stays as it is only if no code declares names in it.  So we keep the
  list of the scopes that code is AT HOME in: the globals, the namespaces of the modules being loaded, and
  the local scopes of the calls in progress.  No captured scope is ever among them.

  The table counts a name of a builtin as declared as soon as it is TAKEN, although nothing may ever be
  bound to it, because builtins cannot be assigned.  Such a name is found all the same, but not above.
-/
import ValueShell.Proofs.Blameless
import ValueShell.Proofs.Growth
import ValueShell.Proofs.ScopedCompilation

namespace ValueShell

/-- The scope binds the name. -/
def Store.Binds (s : Store) (scope : ScopeId) (name : String) : Prop :=
  (s.find? scope name).isSome = true

instance (s : Store) (scope : ScopeId) (name : String) : Decidable (s.Binds scope name) :=
  inferInstanceAs (Decidable (_ = true))

/-- **What is settled for a whole session**: the builtins, and the names that its code takes early. -/
structure Ground where
  builtins : ScopeId
  names : List String
  early : String → Prop

namespace Ground

variable (g : Ground)

/-- The name of a builtin that code takes early. -/
def Taken (name : String) : Prop := name ∈ g.names ∧ g.early name

/-- **The scope check does not vouch** for the variable `ns:name`: it is in a namespace, in the local
scope alone or, for a builtin that was taken early, above; or it is no command of the system. -/
structure Open (ns name : String) : Prop where
  qualified : ns ≠ ""
  notBuiltin : ns ≠ "builtin"
  notEnvironment : ns ≠ "E"
  above : ns = "up" → g.Taken name
  command : ns = "e" → name.toList.getLast? ≠ some '~'

/-- A report of a missing variable is about one that the scope check does not vouch for. -/
def Expects : Fault → Prop
  | .variableNotFound shown | .missingBase shown =>
    ∃ text, shown = qualifiedName (Reference.ofText text).ns (Reference.ofText text).name ∧
      g.Open (Reference.ofText text).ns (Reference.ofText text).name
  | _ => True

/-- All code of modules that ran is orderly. -/
def Obeyed (journal : List Event) : Prop :=
  ∀ path code, .running path code ∈ journal → code.Orderly g.early

variable {g}

/-- An ordinary fault may always occur. -/
theorem expects_of_ordinary {f : Fault} (h : f.Ordinary) : g.Expects f := by
  cases f <;> first | exact trivial | exact h.elim

/-- What was obeyed up to some point was obeyed before it. -/
theorem Obeyed.before {w w' : World} {home : Option ScopeId} (hg : Grows home w w')
    (h : g.Obeyed w'.journal) : g.Obeyed w.journal := by
  obtain ⟨events, he⟩ := hg.journal
  intro path code hrun
  exact h path code (he ▸ List.mem_append_right events hrun)

end Ground

/-! ## The names of a table -/

namespace ScopeTable

/-- Some scope of the table has the name. -/
def has (t : ScopeTable) (name : String) : Bool := t.scopes.any (·.contains name)

/-- A name is known if it is in the innermost scope, or outside of it. -/
theorem has_iff {t : ScopeTable} {name : String} :
    t.has name = true ↔ name ∈ t.innermost ∨ t.outerHas name = true := by
  obtain ⟨scopes, builtins⟩ := t
  cases scopes <;> simp [has, innermost, outerHas]

theorem outerHas_of_sameOuter {t t' : ScopeTable} (h : t.SameOuter t') (name : String) :
    t'.outerHas name = t.outerHas name := by rw [outerHas, outerHas, h.1]

/-- A declaration adds its own name and no other. -/
theorem mem_innermost_declare {t : ScopeTable} {name x : String}
    (h : x ∈ (t.declare name).innermost) : x = name ∨ x ∈ t.innermost := by
  obtain ⟨scopes, builtins⟩ := t
  cases scopes with
  | nil => exact .inr h
  | cons scope outer => exact List.mem_insert_iff.mp h

/-- It takes none away. -/
theorem innermost_subset_declare (t : ScopeTable) (name : String) :
    t.innermost ⊆ (t.declare name).innermost := by
  obtain ⟨scopes, builtins⟩ := t
  cases scopes with
  | nil => exact fun _ h => h
  | cons scope outer => exact fun _ h => List.mem_insert_iff.mpr (.inr h)

/-- An assignment to an unqualified or a local name declares it. -/
theorem assign?_cases {t t' : ScopeTable} {ns name : String} (h : t.assign? ns name = some t') :
    (ns = "" ∨ ns = "local") ∧ t' = t.declare name ∨
      (ns ≠ "" ∧ ns ≠ "local") ∧ t' = t := by
  unfold assign? at h
  split at h
  · next hns =>
    cases h
    exact .inl ⟨hns, rfl⟩
  · next hns =>
    split at h
    · cases h
      exact .inr ⟨not_or.mp hns, rfl⟩
    · exact nomatch h

/-- To undeclare a name takes it away and no other. -/
theorem mem_innermost_undeclare {t : ScopeTable} {name x : String}
    (h : x ∈ (t.undeclare name).innermost) : x ≠ name ∧ x ∈ t.innermost := by
  obtain ⟨scopes, builtins⟩ := t
  cases scopes with
  | nil => exact nomatch h
  | cons scope outer =>
    obtain ⟨hx, hne⟩ := List.mem_filter.mp h
    exact ⟨by simpa using hne, hx⟩

end ScopeTable

/-- Targets only add names. -/
theorem Target.ScopedEach.innermost_subset {early : String → Prop} {t t' : ScopeTable}
    {ts : List Target} (h : Target.ScopedEach early t ts t') : t.innermost ⊆ t'.innermost := by
  induction ts generalizing t with
  | nil =>
    cases h
    exact fun _ hx => hx
  | cons x ts ih =>
    cases h with
    | named first rest =>
      rcases ScopeTable.assign?_cases first with ⟨-, rfl⟩ | ⟨-, rfl⟩
      · exact fun _ hx => ih rest (ScopeTable.innermost_subset_declare t _ hx)
      · exact ih rest
    | element _ _ _ _ rest => exact ih rest

/-! ## Closures and values -/

section Values

variable (g : Ground) (homes : List ScopeId)

/-- **The scope that a closure captured** binds the names that its lambda was compiled with, and stays as
it is. -/
structure Closure.Founded (s : Store) (c : Closure) : Prop where
  sealed : c.captured ∉ homes
  known : c.captured.index < s.scopes.size
  compiled : ∃ t : ScopeTable, t.builtins = g.names ∧
    (∀ name, t.has name = true → s.Binds c.captured name ∨ g.Taken name) ∧
      c.lambda.Scoped g.early t

/-- Every closure in the values is founded. -/
def World.Admits (vs : List Value) (w : World) : Prop :=
  ∀ v ∈ vs, v.Carries (Closure.Founded g homes w.store)

variable {g homes} {w w' : World}

/-- A closure stays founded: what it has captured is still there. -/
theorem Closure.Founded.grows {home : Option ScopeId} (hg : Grows home w w')
    (hh : ∀ scope, home = some scope → scope ∈ homes) {c : Closure}
    (h : c.Founded g homes w.store) : c.Founded g homes w'.store := by
  obtain ⟨t, hb, hnames, hl⟩ := h.compiled
  refine ⟨h.sealed, Nat.lt_of_lt_of_le h.known hg.scopes, t, hb, fun name hn => ?_, hl⟩
  rw [Store.Binds, Store.find?, hg.kept c.captured h.known fun heq => h.sealed (hh _ heq)]
  exact hnames name hn

/-- Values stay sound as the world grows. -/
theorem World.Admits.grows {home : Option ScopeId} (hg : Grows home w w')
    (hh : ∀ scope, home = some scope → scope ∈ homes) {vs : List Value}
    (h : w.Admits g homes vs) : w'.Admits g homes vs :=
  fun v hv => (h v hv).mono fun _ hc => hc.grows hg hh

/-- No values are sound values. -/
theorem World.Admits.nil : w.Admits g homes [] := nofun

/-- One sound value more. -/
theorem World.Admits.cons {v : Value} {vs : List Value}
    (hv : v.Carries (Closure.Founded g homes w.store)) (h : w.Admits g homes vs) :
    w.Admits g homes (v :: vs) := by
  intro x hx
  rcases List.mem_cons.mp hx with rfl | hx
  · exact hv
  · exact h x hx

theorem World.Admits.only {v : Value} (hv : v.Carries (Closure.Founded g homes w.store)) :
    w.Admits g homes [v] := .cons hv .nil

theorem World.Admits.head {v : Value} {vs : List Value} (h : w.Admits g homes (v :: vs)) :
    v.Carries (Closure.Founded g homes w.store) := h v List.mem_cons_self

theorem World.Admits.tail {v : Value} {vs : List Value} (h : w.Admits g homes (v :: vs)) :
    w.Admits g homes vs := fun x hx => h x (List.mem_cons_of_mem _ hx)

/-- Sound values of two lists, in one. -/
theorem World.Admits.append {us vs : List Value} (hu : w.Admits g homes us)
    (hv : w.Admits g homes vs) : w.Admits g homes (us ++ vs) :=
  fun x hx => (List.mem_append.mp hx).elim (hu x) (hv x)

theorem World.Admits.subset {us vs : List Value} (h : w.Admits g homes vs) (hs : us ⊆ vs) :
    w.Admits g homes us := fun x hx => h x (hs hx)

end Values

/-! ## Frames -/

section Frames

variable (g : Ground) (homes : List ScopeId)

/-- **The frame finds the names of the table.** -/
structure Frame.Covers (f : Frame) (t : ScopeTable) (w : World) : Prop where
  home : f.localScope ∈ homes
  known : f.localScope.index < w.store.scopes.size
  sealed : f.upScope ∉ homes
  aboveKnown : f.upScope.index < w.store.scopes.size
  builtins : f.setting.builtins = g.builtins
  names : t.builtins = g.names
  inner : ∀ name ∈ t.innermost,
    w.store.Binds f.localScope name ∨ w.store.Binds f.upScope name ∨ g.Taken name
  outer : ∀ name, t.outerHas name = true → w.store.Binds f.upScope name ∨ g.Taken name

variable {g homes} {f : Frame} {t : ScopeTable} {w w' : World}

/-- A frame stays covered by what leaves all scopes alone. -/
theorem Frame.Covers.grows (hg : Grows none w w') (h : f.Covers g homes t w) :
    f.Covers g homes t w' where
  home := h.home
  known := Nat.lt_of_lt_of_le h.known hg.scopes
  sealed := h.sealed
  aboveKnown := Nat.lt_of_lt_of_le h.aboveKnown hg.scopes
  builtins := h.builtins
  names := h.names
  inner name hn := by
    rw [Store.Binds, Store.Binds, hg.find?_eq h.known, hg.find?_eq h.aboveKnown]
    exact h.inner name hn
  outer name hn := by
    rw [Store.Binds, hg.find?_eq h.aboveKnown]
    exact h.outer name hn

/-- The local scope and the one above are different. -/
theorem Frame.Covers.ne (h : f.Covers g homes t w) : f.localScope ≠ f.upScope :=
  fun heq => h.sealed (heq ▸ h.home)

/-- A smaller table is covered too. -/
theorem Frame.Covers.shrink {t' : ScopeTable} (h : f.Covers g homes t' w) (ht : t.SameOuter t')
    (hi : t.innermost ⊆ t'.innermost) : f.Covers g homes t w where
  home := h.home
  known := h.known
  sealed := h.sealed
  aboveKnown := h.aboveKnown
  builtins := h.builtins
  names := ht.2.symm.trans h.names
  inner name hn := h.inner name (hi hn)
  outer name hn := h.outer name (by rwa [ScopeTable.outerHas_of_sameOuter ht])

/-- A name that is found may be declared. -/
theorem Frame.Covers.declare (h : f.Covers g homes t w) {name : String}
    (hn : w.store.Binds f.localScope name ∨ w.store.Binds f.upScope name ∨ g.Taken name) :
    f.Covers g homes (t.declare name) w where
  home := h.home
  known := h.known
  sealed := h.sealed
  aboveKnown := h.aboveKnown
  builtins := h.builtins
  names := (t.sameOuter_declare name).2.trans h.names
  inner x hx := by
    rcases ScopeTable.mem_innermost_declare hx with rfl | hx
    · exact hn
    · exact h.inner x hx
  outer x hx := h.outer x (by rwa [← ScopeTable.outerHas_of_sameOuter (t.sameOuter_declare name)])

/-- Binding a name locally hides nothing. -/
theorem Frame.Covers.bind (h : f.Covers g homes t w) (name : String) (c : CellId) :
    f.Covers g homes (t.declare name)
      { w with store := w.store.bind f.localScope name c } := by
  have size : (w.store.bind f.localScope name c).scopes.size = w.store.scopes.size :=
    Array.size_modify
  have above (x : String) : (w.store.bind f.localScope name c).Binds f.upScope x ↔
      w.store.Binds f.upScope x := by
    rw [Store.Binds, Store.find?, Store.scope_bind_of_ne _ _ _ h.ne]
    rfl
  have here (x : String) : (w.store.bind f.localScope name c).Binds f.localScope x ↔
      x = name ∨ w.store.Binds f.localScope x := by
    rw [Store.Binds, Store.find?, Store.scope_bind_self _ _ _ h.known, Table.find?_insert]
    by_cases hx : name = x
    · simp [hx]
    · simp [hx, Ne.symm hx, Store.Binds, Store.find?]
  have kept : f.Covers g homes t { w with store := w.store.bind f.localScope name c } :=
    { h with
      known := size ▸ h.known
      aboveKnown := size ▸ h.aboveKnown
      inner := fun x hx => (h.inner x hx).imp (fun hb => (here x).mpr (.inr hb))
        (.imp_left (above x).mpr)
      outer := fun x hx => (h.outer x hx).imp_left (above x).mpr }
  exact kept.declare (.inl ((here name).mpr (.inl rfl)))

/-- Removing a name from the local scope matters for that name only. -/
theorem Frame.Covers.unbind (h : f.Covers g homes t w) (name : String) :
    f.Covers g homes (t.undeclare name)
      { w with store := w.store.unbind f.localScope name } := by
  have size : (w.store.unbind f.localScope name).scopes.size = w.store.scopes.size :=
    Array.size_modify
  have above (x : String) : (w.store.unbind f.localScope name).Binds f.upScope x ↔
      w.store.Binds f.upScope x := by
    rw [Store.Binds, Store.find?, Store.scope_unbind_of_ne _ _ h.ne]
    rfl
  have here (x : String) (hx : x ≠ name) :
      (w.store.unbind f.localScope name).Binds f.localScope x ↔ w.store.Binds f.localScope x := by
    rw [Store.Binds, Store.find?, Store.scope_unbind_self _ _ h.known, Table.find?_erase,
      if_neg hx.symm]
    rfl
  exact {
    home := h.home
    known := size ▸ h.known
    sealed := h.sealed
    aboveKnown := size ▸ h.aboveKnown
    builtins := h.builtins
    names := (t.sameOuter_undeclare name).2.trans h.names
    inner := fun x hx => by
      obtain ⟨hne, hx⟩ := ScopeTable.mem_innermost_undeclare hx
      exact (h.inner x hx).imp (here x hne).mpr (.imp_left (above x).mpr)
    outer := fun x hx => (h.outer x (by
      rwa [← ScopeTable.outerHas_of_sameOuter (t.sameOuter_undeclare name)])).imp_left
        (above x).mpr }

/-- The label of a frame has nothing to do with its names. -/
theorem Frame.Covers.labelled (h : f.Covers g homes t w) (label : String) :
    (f.labelled label).Covers g homes t w := { h with }

/-- Nor have its ports. -/
theorem Frame.Covers.withPorts (h : f.Covers g homes t w) (ports : Ports) :
    (f.withPorts ports).Covers g homes t w := { h with }

/-- A name of any scope of the table is bound locally or above, unless it was taken early. -/
theorem Frame.Covers.has (h : f.Covers g homes t w) {name : String}
    (hn : t.has name = true) :
    w.store.Binds f.localScope name ∨ w.store.Binds f.upScope name ∨ g.Taken name := by
  rcases ScopeTable.has_iff.mp hn with hi | ho
  · exact h.inner name hi
  · exact .inr (h.outer name ho)

end Frames

/-! ## Worlds -/

/-- **Everything is in order**, for code at home in the given scopes. -/
structure World.Sound (g : Ground) (homes : List ScopeId) (w : World) : Prop where
  inside : ∀ scope ∈ homes, scope.index < w.store.scopes.size
  sealed : g.builtins ∉ homes
  known : g.builtins.index < w.store.scopes.size
  names : w.store.names g.builtins = g.names
  constant : ∀ name c, w.store.find? g.builtins name = some c →
    ∃ cell, w.store.cell? c = some cell ∧ cell.readOnly = true
  cells : ∀ c cell, w.store.cell? c = some cell →
    cell.value.Carries (Closure.Founded g homes w.store)
  queues : w.streams.Carries (Closure.Founded g homes w.store)
  faults : ∀ f, .raised f ∈ w.journal → g.Expects f

namespace World.Sound

variable {g : Ground} {homes : List ScopeId} {w w' : World}

/-- The scope of the builtins has the names of the builtins and no others. -/
theorem binds_builtin (h : w.Sound g homes) {name : String} :
    w.store.Binds g.builtins name ↔ name ∈ g.names := by
  rw [← h.names]
  exact Table.mem_names.symm

/-- What a variable holds is admitted. -/
theorem read (h : w.Sound g homes) (c : CellId) :
    (w.store.read c).Carries (Closure.Founded g homes w.store) := by
  unfold Store.read
  split
  · next cell hc => exact h.cells c cell hc
  · exact .text

/-- What a place holds in a sound world is sound. -/
theorem valueAt (h : w.Sound g homes) {f : Frame} {ns name : String} {place : Place}
    (hp : f.find? w.store ns name = some place) :
    (w.valueAt place).Carries (Closure.Founded g homes w.store) := by
  cases place with
  | cell c => exact h.read c
  | environment _ => exact .text
  | transient v =>
    -- the only values made on the spot are commands of the system
    unfold Frame.find? at hp
    split at hp
    · cases hx : f.findPlain? w.store name <;> rw [hx] at hp <;> cases hp
    · cases hx : w.store.find? f.localScope name <;> rw [hx] at hp <;> cases hp
    · cases hx : w.store.find? f.upScope name <;> rw [hx] at hp <;> cases hp
    · cases hx : w.store.find? f.setting.builtins name <;> rw [hx] at hp <;> cases hp
    · cases hp
    · split at hp <;> cases hp
      exact .external
    · obtain ⟨scope, -, hp⟩ := Option.bind_eq_some_iff.mp hp
      cases hx : w.store.find? scope name <;> rw [hx] at hp <;> cases hp

/-- **A variable that can be read is there**, unless the scope check does not vouch for it. -/
theorem open_of_missing (h : w.Sound g homes) {f : Frame} {t : ScopeTable}
    (hc : f.Covers g homes t w) {ns name : String} (known : t.canRead ns name = true)
    (missing : f.find? w.store ns name = none) : g.Open ns name := by
  have builtin : t.builtins.contains name = true → w.store.Binds f.setting.builtins name := by
    intro hn
    rw [hc.builtins, h.binds_builtin, ← hc.names]
    exact List.contains_iff_mem.mp hn
  -- one case for every kind of namespace that the table can vouch for
  constructor
  · rintro rfl
    have none : f.findPlain? w.store name = none := by
      cases hx : f.findPlain? w.store name with
      | none => rfl
      | some c =>
        change (f.findPlain? w.store name).map Place.cell = none at missing
        rw [hx] at missing
        cases missing
    obtain ⟨⟨hl, hu⟩, hb⟩ : (w.store.find? f.localScope name = .none ∧
        w.store.find? f.upScope name = .none) ∧ w.store.find? f.setting.builtins name = .none := by
      simpa [Frame.findPlain?] using none
    have visible : t.has name = true ∨ t.builtins.contains name = true := by
      simpa [ScopeTable.canRead, ScopeTable.visible, ScopeTable.has] using known
    have unbound : ¬w.store.Binds f.setting.builtins name := by simp [Store.Binds, hb]
    rcases visible with hn | hn
    · rcases hc.has hn with hx | hx | ⟨hx, -⟩
      · simp [Store.Binds, hl] at hx
      · simp [Store.Binds, hu] at hx
      · rw [hc.builtins, h.binds_builtin] at unbound
        exact unbound hx
    · exact unbound (builtin hn)
  · rintro rfl
    have hx := builtin known
    change (w.store.find? f.setting.builtins name).map Place.cell = none at missing
    rw [Option.map_eq_none_iff] at missing
    rw [Store.Binds, missing] at hx
    cases hx
  · rintro rfl
    cases missing
  · rintro rfl
    change (w.store.find? f.upScope name).map Place.cell = none at missing
    rw [Option.map_eq_none_iff] at missing
    refine (hc.outer name known).resolve_left fun hx => ?_
    rw [Store.Binds, missing] at hx
    cases hx
  · rintro rfl hlast
    simp only [Frame.find?, hlast] at missing
    cases missing

/-! ## Changes that keep the world sound -/

/-- A change of the store that leaves all scopes but a home alone, and puts only admitted values into
cells. -/
theorem changeStore (h : w.Sound g homes) {s : Store} {home : Option ScopeId}
    (hg : Grows home w { w with store := s }) (hh : ∀ scope, home = some scope → scope ∈ homes)
    (hcells : ∀ c cell, s.cell? c = some cell →
      (∃ old, w.store.cell? c = some old ∧ cell.value = old.value) ∨
        cell.value.Carries (Closure.Founded g homes s)) :
    World.Sound g homes { w with store := s } := by
  have kept : s.scope g.builtins = w.store.scope g.builtins :=
    hg.kept _ h.known fun heq => h.sealed (hh _ heq)
  have founded (c : Closure) (hc : c.Founded g homes w.store) : c.Founded g homes s :=
    Closure.Founded.grows hg hh hc
  refine {
    inside := fun scope hs => Nat.lt_of_lt_of_le (h.inside scope hs) hg.scopes
    sealed := h.sealed
    known := Nat.lt_of_lt_of_le h.known hg.scopes
    names := ?_
    constant := fun name c hc => ?_
    cells := fun c cell hc => ?_
    queues := h.queues.mono founded
    faults := h.faults }
  · show Table.names (s.scope g.builtins) = _
    rw [kept]
    exact h.names
  · obtain ⟨cell, hcell, hro⟩ := h.constant name c (by
      change Table.find? (s.scope g.builtins) name = some c at hc
      rwa [kept] at hc)
    exact ⟨cell, hg.constant c cell hcell hro, hro⟩
  · rcases hcells c cell hc with ⟨old, hold, hv⟩ | hv
    · rw [hv]
      exact (h.cells c old hold).mono founded
    · exact hv

/-- With the cells as they were. -/
theorem changeScopes (h : w.Sound g homes) {s : Store} {home : Option ScopeId}
    (hg : Grows home w { w with store := s }) (hh : ∀ scope, home = some scope → scope ∈ homes)
    (hcells : s.cells = w.store.cells) : World.Sound g homes { w with store := s } :=
  h.changeStore hg hh fun c cell hc => .inl ⟨cell, by rwa [Store.cell?, ← hcells], rfl⟩

/-- A sound value can be put in a new cell, -/
theorem newCell (h : w.Sound g homes) {cell : Cell}
    (hv : cell.value.Carries (Closure.Founded g homes w.store)) :
    World.Sound g homes { w with store := (w.store.newCell cell).2 } := by
  refine h.changeStore (.newCell none w cell) nofun fun c found hc => ?_
  rw [Store.cell?_newCell] at hc
  split at hc
  · cases hc
    exact .inr (hv.mono fun _ hf => hf.grows (.newCell none w cell) nofun)
  · exact .inl ⟨found, hc, rfl⟩

/-- and a new scope may have any cells. -/
theorem newScope (h : w.Sound g homes) (entries : Table CellId) :
    World.Sound g homes { w with store := (w.store.newScope entries).2 } :=
  h.changeScopes (.newScope none w entries) nofun rfl

/-- To bind a name takes a scope at home. -/
theorem bind (h : w.Sound g homes) {scope : ScopeId} (hs : scope ∈ homes) (name : String)
    (c : CellId) : World.Sound g homes { w with store := w.store.bind scope name c } :=
  h.changeScopes (.bind rfl w name c) (fun _ heq => by cases heq; exact hs) rfl

/-- So does unbinding one. -/
theorem unbind (h : w.Sound g homes) {scope : ScopeId} (hs : scope ∈ homes) (name : String) :
    World.Sound g homes { w with store := w.store.unbind scope name } :=
  h.changeScopes (.unbind rfl w name) (fun _ heq => by cases heq; exact hs) rfl

/-- An assignment of a sound value keeps the world sound. -/
theorem assign (h : w.Sound g homes) {c : CellId} {cell cell' : Cell} {v : Value}
    (hc : w.store.cell? c = some cell) (ha : cell.assign v = .ok cell')
    (hv : v.Carries (Closure.Founded g homes w.store)) :
    World.Sound g homes { w with store := w.store.setCell c cell' } := by
  have hg : Grows none w { w with store := w.store.setCell c cell' } := .assign none hc ha
  have hvalue : cell'.value = v := by rw [Cell.assign_eq ha]
  refine h.changeStore hg nofun fun other found hf => ?_
  rw [Store.cell?_setCell] at hf
  split at hf
  · next heq =>
    subst heq
    rw [hc] at hf
    cases hf
    rw [hvalue]
    exact .inr (hv.mono fun _ hc => hc.grows hg nofun)
  · exact .inl ⟨found, hf, rfl⟩

/-- A fresh variable holds no closure. -/
theorem declare (h : w.Sound g homes) (name : String) :
    World.Sound g homes { w with store := (w.store.declare name).2 } := by
  unfold Store.declare
  split
  · exact h.newCell .builtin
  · exact (h.newScope []).newCell .ns
  · exact h.newCell .text

/-- The queues have to be sound, too. -/
theorem changeStreams (h : w.Sound g homes) {s : Streams}
    (hs : s.Carries (Closure.Founded g homes w.store)) :
    World.Sound g homes { w with streams := s } := { h with queues := hs }

/-- A failure in the journal has to be one that may occur. -/
theorem note (h : w.Sound g homes) {e : Event} (he : ∀ f, e = .raised f → g.Expects f) :
    (w.note e).Sound g homes :=
  { h with
    faults := fun f hf => by
      rcases List.mem_cons.mp hf with heq | hf
      · exact he f heq.symm
      · exact h.faults f hf }

/-! ## Code with a home of its own -/

/-- No closure has captured a scope that is only being made. -/
theorem founded_fresh {scope : ScopeId} {s : Store} {c : Closure} (fresh : s.scopes.size ≤ scope.index)
    (h : c.Founded g homes s) : c.Founded g (scope :: homes) s := by
  refine { h with sealed := fun hmem => ?_ }
  rcases List.mem_cons.mp hmem with heq | hmem
  · have hk := h.known
    rw [heq] at hk
    omega
  · exact h.sealed hmem

/-- A closure needs none of the homes that are left. -/
theorem founded_leave {scope : ScopeId} {s : Store} {c : Closure}
    (h : c.Founded g (scope :: homes) s) : c.Founded g homes s :=
  { h with sealed := fun hmem => h.sealed (List.mem_cons_of_mem _ hmem) }

/-- The fresh scope that a call or a load is at home in. -/
theorem enter (h : w.Sound g homes) :
    World.Sound g (⟨w.store.scopes.size⟩ :: homes)
      { w with store := (w.store.newScope []).2 } := by
  have hs := h.newScope []
  -- closures that are already there cannot have captured a scope that is only being made
  have founded (c : Closure) (hc : c.Founded g homes w.store) :
      c.Founded g (⟨w.store.scopes.size⟩ :: homes) (w.store.newScope []).2 := by
    have grown : Grows none w { w with store := (w.store.newScope []).2 } := .newScope none w []
    exact Closure.Founded.grows grown nofun (founded_fresh (Nat.le_refl _) hc)
  refine { hs with
    inside := fun scope hm => ?_
    sealed := fun hm => ?_
    cells := fun c cell hc => (h.cells c cell hc).mono founded
    queues := h.queues.mono founded }
  · rcases List.mem_cons.mp hm with rfl | hm
    · show w.store.scopes.size < (w.store.scopes.push []).size
      rw [Array.size_push]
      omega
    · exact hs.inside scope hm
  · rcases List.mem_cons.mp hm with heq | hm
    · have hk := h.known
      rw [heq] at hk
      exact Nat.lt_irrefl _ hk
    · exact h.sealed hm

/-- **When a call is over, its scope is a home no more**, and the world is sound without it. -/
theorem leave {scope : ScopeId} (h : w.Sound g (scope :: homes)) : w.Sound g homes :=
  { h with
    inside := fun s hs => h.inside s (List.mem_cons_of_mem _ hs)
    sealed := fun hm => h.sealed (List.mem_cons_of_mem _ hm)
    cells := fun c cell hc => (h.cells c cell hc).mono fun _ => founded_leave
    queues := h.queues.mono fun _ => founded_leave }

end World.Sound

end ValueShell
