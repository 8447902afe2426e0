/-
  Values that are alike.

  Two runs of the same code, in two worlds, number their things differently: a variable, a scope or a
  closure has in the one run another number than in the other.  A `Matching` says which number of the one
  run stands for which of the other.  What existed before may be matched in any way, and need not be matched at
  all; from then on both runs make their things in the same order, so the new ones are matched in the
  order in which they are made.

  `Value.Alike` says that two values are the same but for these numbers.  It is shaped like `Value`, one rule
  for each kind.  No operation on values looks at the numbers, except to compare two of them, so alike
  values have alike elements, the same renderings, the same truth, and so on; there is one lemma
  for each operation.
-/
import ValueShell.Operation.Code
import ValueShell.Proofs.Carried
import ValueShell.Proofs.Printing
import ValueShell.Store
import ValueShell.World.Streams
import Mathlib.Data.List.Forall2

namespace ValueShell

/-! ## Numbers in step -/

/-- Two numberings, matched from the given starts on in order, and before the starts as `old` says. -/
structure Pairing where
  start : Nat
  start' : Nat
  old : Nat → Nat → Prop
  below : ∀ {i j}, old i j → i < start ∧ j < start'
  unique : ∀ {i j i' j'}, old i j → old i' j' → (i = i' ↔ j = j')

namespace Pairing

variable {p : Pairing} {i j i' j' n n' : Nat}

/-- The numbers that are matched. -/
inductive Rel (p : Pairing) : Nat → Nat → Prop
  | old {i j : Nat} (h : p.old i j) : Rel p i j
  | new (k : Nat) : Rel p (p.start + k) (p.start' + k)

/-- A number is matched with one number at most. -/
theorem Rel.unique (h : p.Rel i j) (h' : p.Rel i' j') : i = i' ↔ j = j' := by
  cases h with
  | old h =>
    cases h' with
    | old h' => exact p.unique h h'
    | new k =>
      have := p.below h
      omega
  | new k =>
    cases h' with
    | old h' =>
      have := p.below h'
      omega
    | new k' => omega

/-- **In step**: equally many things are new. -/
def InStep (p : Pairing) (n n' : Nat) : Prop := ∃ k, n = p.start + k ∧ n' = p.start' + k

/-- What comes next on both sides is a pair. -/
theorem InStep.rel (h : p.InStep n n') : p.Rel n n' := by
  obtain ⟨k, rfl, rfl⟩ := h
  exact .new k

/-- After one more on both sides the sides are in step again. -/
theorem InStep.succ (h : p.InStep n n') : p.InStep (n + 1) (n' + 1) := by
  obtain ⟨k, rfl, rfl⟩ := h
  exact ⟨k + 1, rfl, rfl⟩

/-- Sides that are in step have not fallen behind where the pairing started. -/
theorem InStep.le (h : p.InStep n n') : p.start ≤ n ∧ p.start' ≤ n' := by
  obtain ⟨k, rfl, rfl⟩ := h
  omega

/-- What is matched is there in both runs or in neither. -/
theorem Rel.lt_iff (h : p.Rel i j) (step : p.InStep n n') : i < n ↔ j < n' := by
  have := step.le
  cases h with
  | old h =>
    have := p.below h
    omega
  | new k =>
    obtain ⟨m, rfl, rfl⟩ := step
    omega

/-- What is new is matched in order, and what was there as `old` says. -/
def since (start start' : Nat) (old : Nat → Nat → Prop)
    (unique : ∀ {i j i' j'}, old i j → old i' j' → (i = i' ↔ j = j')) : Pairing where
  start := start
  start' := start'
  old i j := old i j ∧ i < start ∧ j < start'
  below h := h.2
  unique h h' := unique h.1 h'.1

/-- Only what is new is matched. -/
def fresh (start start' : Nat) : Pairing := since start start' (fun _ _ => False) nofun

/-- What is matched was there on both sides or on neither. -/
theorem Rel.old_or_new {p : Pairing} {i j : Nat} (h : p.Rel i j) :
    p.old i j ∨ p.start ≤ i ∧ p.start' ≤ j := by
  cases h with
  | old h => exact .inl h
  | new k => exact .inr ⟨Nat.le_add_right _ _, Nat.le_add_right _ _⟩

/-- A fresh pairing is between new things only. -/
theorem Rel.isNew {start start' i j : Nat} (h : (fresh start start').Rel i j) :
    start ≤ i ∧ start' ≤ j := h.old_or_new.resolve_left fun was => was.1

/-- A pairing starts in step. -/
theorem inStep_start (p : Pairing) : p.InStep p.start p.start' := ⟨0, rfl, rfl⟩

/-- Every number is matched with itself. -/
def same : Pairing := ⟨0, 0, fun _ _ => False, nofun, nofun⟩

/-- Under the pairing of everything with itself only equal things are a pair. -/
theorem rel_same : same.Rel i j ↔ i = j := by
  constructor
  · rintro (h | k)
    · exact h.elim
    · rfl
  · rintro rfl
    have := Rel.new (p := same) i
    rwa [same, Nat.zero_add] at this

theorem inStep_same : same.InStep n n' ↔ n = n' := by
  constructor
  · rintro ⟨k, rfl, rfl⟩
    rfl
  · rintro rfl
    exact ⟨n, (Nat.zero_add n).symm, (Nat.zero_add n).symm⟩

end Pairing

/-! ## Matchings -/

/-- The rest parameter, if there is one, has a name without a suffix. -/
def Lambda.TakesPlainRest (l : Lambda) : Prop := ∀ name ∈ l.rest, Constraint.forName? name = none

/-- **What of the one run stands for what of the other.** -/
structure Matching where
  cells : Pairing
  scopes : Pairing
  /-- the numbers that tell closures and exceptions apart -/
  identities : Pairing
  queues : Pairing
  buffers : Pairing
  /-- scopes that code sees above it or among the builtins, and that no value holds -/
  seen : Nat → Nat → Prop
  seen_unique : ∀ {i j i' j'}, seen i j → scopes.Rel i' j' ∨ seen i' j' → (i = i' ↔ j = j')
  /-- no scope of the first run has this number or a higher one -/
  bound : Nat
  source : Source → Source → Prop
  source_refl : ∀ s, source s s
  source_same : ∀ {s s'}, source s s' → s.name = s'.name ∧ s.kind = s'.kind
  /-- what the streams held before, in the first run and in the second -/
  held : Streams
  held' : Streams
  /-- the cells of the first run that are matched with none -/
  kept : Nat → Option Cell
  /-- the entries of the scopes of the first run that values do not stand for each other in -/
  keptScopes : Nat → Table CellId
  /-- no lambda takes its rest under a name with a suffix -/
  strict : Prop

/-- Where the sources are the same, so is what a matching asks of them. -/
theorem Source.same_of_eq {s s' : Source} (h : s = s') : s.name = s'.name ∧ s.kind = s'.kind := by
  subst h
  exact ⟨rfl, rfl⟩

namespace Matching

variable (ρ : Matching)

/-- The cells that are matched. -/
def Cell (c c' : CellId) : Prop := ρ.cells.Rel c.index c'.index

/-- The scopes that are matched. -/
def Scope (s s' : ScopeId) : Prop := ρ.scopes.Rel s.index s'.index ∧ s.index < ρ.bound

/-- The scopes that code may look names up in. -/
def Visible (s s' : ScopeId) : Prop := ρ.scopes.Rel s.index s'.index ∨ ρ.seen s.index s'.index

/-- The lambdas that code may close over. -/
def Admits (l : Lambda) : Prop := ρ.strict → l.TakesPlainRest

variable {ρ}

/-- A scope that is paired is visible. -/
theorem Scope.visible {s s' : ScopeId} (h : ρ.Scope s s') : ρ.Visible s s' := .inl h.1

/-- **Visible scopes are paired one to one.** -/
theorem Visible.unique {s s' t t' : ScopeId} (h : ρ.Visible s s') (h' : ρ.Visible t t') :
    s = t ↔ s' = t' := by
  have numbers : s.index = t.index ↔ s'.index = t'.index := by
    rcases h with h | h
    · rcases h' with h' | h'
      · exact h.unique h'
      · rw [eq_comm, ρ.seen_unique h' (.inl h), eq_comm]
    · exact ρ.seen_unique h h'
  constructor
  · rintro rfl
    exact ScopeId.eq_of_index (numbers.mp rfl)
  · rintro rfl
    exact ScopeId.eq_of_index (numbers.mpr rfl)

end Matching

/-! ## Alike -/

section Alike

variable (ρ : Matching)

/-- The same place, in sources that stand for each other. -/
structure Site.Alike (s s' : Site) : Prop where
  source : ρ.source s.source s'.source
  span : s.span = s'.span
  label : s.label = s'.label

/-- The same failure. -/
structure Exception.Alike (e e' : Exception) : Prop where
  fault : e.fault = e'.fault
  site : Option.Rel (Site.Alike ρ) e.site e'.site

/-- The same lambda, closed over scopes that are matched. -/
structure Closure.Alike (c c' : Closure) : Prop where
  id : ρ.identities.Rel c.id c'.id
  lambda : c.lambda = c'.lambda
  admitted : (Code.lambda c.lambda).Each ρ.Admits
  captured : ρ.Scope c.captured c'.captured
  source : ρ.source c.source c'.source
  isFunction : c.isFunction = c'.isFunction

/-- Two functions that are alike. -/
inductive Callable.Alike : Callable → Callable → Prop
  | closure {c c' : Closure} (h : c.Alike ρ c') : Alike (.closure c) (.closure c')
  | builtin (b : Builtin) : Alike (.builtin b) (.builtin b)
  | external (name : String) : Alike (.external name) (.external name)

/-- **Two values that are alike**: the same but for the numbers in them. -/
inductive Value.Alike : Value → Value → Prop
  | text (s : String) : Value.Alike (.text s) (.text s)
  | number (n : Float) : Value.Alike (.number n) (.number n)
  | bool (b : Bool) : Value.Alike (.bool b) (.bool b)
  | list {vs vs' : List Value} (length : vs.length = vs'.length)
      (items : ∀ v v', (v, v') ∈ vs.zip vs' → Value.Alike v v') : Value.Alike (.list vs) (.list vs')
  | map {es es' : List (String × Value)} (keys : es.map Prod.fst = es'.map Prod.fst)
      (entries : ∀ e e', (e, e') ∈ es.zip es' → Value.Alike e.2 e'.2) :
      Value.Alike (.map es) (.map es')
  | function {c c' : Callable} (h : c.Alike ρ c') : Value.Alike (.function c) (.function c')
  | ns {s s' : ScopeId} (h : ρ.Scope s s') : Value.Alike (.ns s) (.ns s')
  | exception {i i' : Nat} {e e' : Exception} (id : ρ.identities.Rel i i') (h : e.Alike ρ e') :
      Value.Alike (.exception i e) (.exception i' e')

/-- Alike one by one. -/
abbrev Values (vs vs' : List Value) : Prop := List.Forall₂ (Value.Alike ρ) vs vs'

end Alike

/-- A step that gives the same on values that are alike gives the same on all of them. -/
theorem Values.mapM_eq {ρ : Matching} {ε α : Type} {step : Value → Except ε α}
    {vs vs' : List Value} (h : Values ρ vs vs') (same : ∀ v v', v.Alike ρ v' → step v = step v') :
    vs.mapM step = vs'.mapM step := by
  induction h with
  | nil => rfl
  | cons hv _ ih => rw [List.mapM_cons, List.mapM_cons, same _ _ hv, ih]

/-- The same names with entries that are related. -/
abbrev Table.Alike {α β : Type} (R : α → β → Prop) (t : Table α) (t' : Table β) : Prop :=
  List.Forall₂ (fun e e' => e.1 = e'.1 ∧ R e.2 e'.2) t t'

/-! ## Tables -/

namespace Table.Alike

variable {α β : Type} {R : α → β → Prop} {t u : Table α} {t' u' : Table β}

/-- Alike tables have alike entries under each name. -/
theorem find? (h : Table.Alike R t t') (name : String) :
    Option.Rel R (Table.find? t name) (Table.find? t' name) := by
  induction h with
  | nil => exact .none
  | @cons e e' t t' he _ ih =>
    obtain ⟨key, a⟩ := e
    obtain ⟨key', b⟩ := e'
    obtain ⟨rfl, hab⟩ := he
    unfold Table.find?
    split
    · exact .some hab
    · exact ih

/-- And they have the same names. -/
theorem names (h : Table.Alike R t t') : Table.names t = Table.names t' := by
  induction h with
  | nil => rfl
  | cons he _ ih => exact congrArg₂ List.cons he.1 ih

/-- They stay alike with an entry more. -/
theorem insert (h : Table.Alike R t t') (name : String) {a : α} {b : β} (hab : R a b) :
    Table.Alike R (Table.insert t name a) (Table.insert t' name b) := by
  induction h with
  | nil => exact .cons ⟨rfl, hab⟩ .nil
  | @cons e e' t t' he rest ih =>
    obtain ⟨key, old⟩ := e
    obtain ⟨key', old'⟩ := e'
    obtain ⟨rfl, hold⟩ := he
    unfold Table.insert
    split
    · exact .cons ⟨rfl, hab⟩ rest
    · split
      · exact .cons ⟨rfl, hab⟩ (.cons ⟨rfl, hold⟩ rest)
      · exact .cons ⟨rfl, hold⟩ ih

/-- And with an entry less. -/
theorem erase (h : Table.Alike R t t') (name : String) :
    Table.Alike R (Table.erase t name) (Table.erase t' name) := by
  unfold Table.erase
  induction h with
  | nil => exact .nil
  | @cons e e' t t' he rest ih =>
    rw [List.filter_cons, List.filter_cons, he.1]
    split
    · exact .cons he ih
    · exact ih

/-- Overlays of alike tables are alike. -/
theorem overlay (h : Table.Alike R t t') (h' : Table.Alike R u u') :
    Table.Alike R (Table.overlay t u) (Table.overlay t' u') := by
  unfold Table.overlay
  induction h' generalizing t t' with
  | nil => exact h
  | @cons e e' u u' he _ ih =>
    refine ih ?_
    dsimp only
    rw [← he.1]
    exact h.insert _ he.2

end Table.Alike

/-! ## Results that may fail -/

/-- The same failure, or results that are related. -/
inductive Except.Alike {ε α β : Type} (R : α → β → Prop) : Except ε α → Except ε β → Prop
  | ok {a : α} {b : β} (h : R a b) : Except.Alike R (.ok a) (.ok b)
  | error (e : ε) : Except.Alike R (.error e) (.error e)

namespace Except.Alike

variable {ε ε' α β γ δ : Type} {R : α → β → Prop} {S : γ → δ → Prop}

theorem refl (r : Except ε α) : Except.Alike Eq r r := by
  cases r with
  | ok a => exact .ok rfl
  | error e => exact .error e

/-- Two steps after one another, where the second is given alike results of the first. -/
theorem bind {x : Except ε α} {y : Except ε β} {k : α → Except ε γ} {l : β → Except ε δ}
    (h : Except.Alike R x y) (next : ∀ a b, R a b → Except.Alike S (k a) (l b)) :
    Except.Alike S (x >>= k) (y >>= l) := by
  cases h with
  | ok hab => exact next _ _ hab
  | error e => exact .error e

/-- Errors are equal on both sides, and stay equal when they are changed. -/
theorem mapError {x : Except ε α} {y : Except ε β} (h : Except.Alike R x y) (change : ε → ε') :
    Except.Alike R (x.mapError change) (y.mapError change) := by
  cases h with
  | ok hab => exact .ok hab
  | error e => exact .error (change e)

theorem map {x : Except ε α} {y : Except ε β} {f : α → γ} {g : β → δ} (h : Except.Alike R x y)
    (hfg : ∀ a b, R a b → S (f a) (g b)) : Except.Alike S (x.map f) (y.map g) := by
  cases h with
  | ok hab => exact .ok (hfg _ _ hab)
  | error e => exact .error e

end Except.Alike

/-! ## Containers -/

namespace Value.Alike

variable {ρ : Matching}

theorem ofItems {vs vs' : List Value} (h : Values ρ vs vs') :
    (Value.list vs).Alike ρ (Value.list vs') :=
  .list h.length_eq fun _ _ hm => List.forall₂_zip h hm

theorem ofEntries {es es' : List (String × Value)} (h : Table.Alike (Value.Alike ρ) es es') :
    (Value.map es).Alike ρ (Value.map es') :=
  .map h.names fun _ _ hm => (List.forall₂_zip h hm).2

/-- Alike lists have alike items. -/
theorem items {vs vs' : List Value} (h : (Value.list vs).Alike ρ (Value.list vs')) :
    Values ρ vs vs' := by
  cases h with
  | list length items => exact List.forall₂_iff_zip.mpr ⟨length, fun hm => items _ _ hm⟩

/-- Entries with the same names whose values are related one by one. -/
theorem tableOf {R : Value → Value → Prop} {es es' : List (String × Value)}
    (keys : es.map Prod.fst = es'.map Prod.fst)
    (entries : ∀ e e', (e, e') ∈ es.zip es' → R e.2 e'.2) : Table.Alike R es es' := by
  have length : es.length = es'.length := by
    have := congrArg List.length keys
    rwa [List.length_map, List.length_map] at this
  have same : List.Forall₂ (fun e e' : String × Value => e.1 = e'.1) es es' := by
    have names : List.Forall₂ Eq (es.map Prod.fst) (es'.map Prod.fst) := by
      rw [keys]
      exact List.forall₂_same.mpr fun _ _ => rfl
    rwa [List.forall₂_map_left_iff, List.forall₂_map_right_iff] at names
  exact List.forall₂_iff_zip.mpr ⟨length, fun hm => ⟨List.forall₂_zip same hm, entries _ _ hm⟩⟩

/-- Alike maps have alike entries. -/
theorem entries {es es' : List (String × Value)}
    (h : (Value.map es).Alike ρ (Value.map es')) : Table.Alike (Value.Alike ρ) es es' := by
  cases h with
  | map keys entries => exact tableOf keys entries

end Value.Alike

/-- A value that refers to nothing is like itself. -/
theorem Value.Closed.alike {ρ : Matching} {v : Value} (h : v.Closed) : v.Alike ρ v := by
  induction h with
  | text => exact .text _
  | number => exact .number _
  | bool => exact .bool _
  | list _ ih => exact .ofItems (List.forall₂_same.mpr ih)
  | map _ ih => exact .ofEntries (List.forall₂_same.mpr fun e he => ⟨rfl, ih e he⟩)

/-! ## Another matching -/

/-- **All that stands for something stands for it under the other matching too**, as far as values can
refer to it. -/
structure Matching.CarriesTo (ρ σ : Matching) : Prop where
  scopes : ∀ {s s'}, ρ.Scope s s' → σ.Scope s s'
  identities : ∀ {i j}, ρ.identities.Rel i j → σ.identities.Rel i j
  source : ∀ {s s'}, ρ.source s s' → σ.source s s'
  admits : ∀ {l}, ρ.Admits l → σ.Admits l

section Carry

variable {ρ σ : Matching} (carries : ρ.CarriesTo σ)
include carries

/-- A place is alike under any matching with the same sources. -/
theorem Site.Alike.carry {s s' : Site} (h : s.Alike ρ s') : s.Alike σ s' :=
  ⟨carries.source h.source, h.span, h.label⟩

theorem Exception.Alike.carry {e e' : Exception} (h : e.Alike ρ e') : e.Alike σ e' := by
  obtain ⟨fault, site⟩ := e
  obtain ⟨fault', site'⟩ := e'
  obtain ⟨same, sites⟩ := h
  cases sites with
  | none => exact ⟨same, .none⟩
  | some hs => exact ⟨same, .some (hs.carry carries)⟩

/-- A closure is, if what it captured is. -/
theorem Closure.Alike.carry {c c' : Closure} (h : c.Alike ρ c') : c.Alike σ c' where
  id := carries.identities h.id
  lambda := h.lambda
  admitted l inside := carries.admits (h.admitted l inside)
  captured := carries.scopes h.captured
  source := carries.source h.source
  isFunction := h.isFunction

/-- **Values that are alike stay so** under the other matching. -/
theorem Value.Alike.carry {v v' : Value} (h : v.Alike ρ v') : v.Alike σ v' := by
  induction h with
  | text s => exact .text s
  | number n => exact .number n
  | bool b => exact .bool b
  | list length items ih => exact .list length ih
  | map keys entries ih => exact .map keys ih
  | function h =>
    cases h with
    | closure h => exact .function (.closure (h.carry carries))
    | builtin b => exact .function (.builtin b)
    | external name => exact .function (.external name)
  | ns h => exact .ns (carries.scopes h)
  | exception id h => exact .exception (carries.identities id) (h.carry carries)

end Carry

/-! ## Comparing and showing -/

/-- Whether two functions are one and the same is answered alike. -/
theorem Callable.Alike.same_eq {ρ : Matching} {c c' d d' : Callable} (h : c.Alike ρ c')
    (k : d.Alike ρ d') : c.same d = c'.same d' := by
  cases h with
  | closure h =>
    cases k with
    | closure k => exact decide_eq_decide.mpr (h.id.unique k.id)
    | _ => rfl
  | _ => cases k <;> rfl

/-- A function is shown as the same text. -/
theorem Callable.Alike.text_eq {ρ : Matching} {c c' : Callable} (h : c.Alike ρ c') :
    c.text = c'.text := by
  cases h with
  | @closure c c' h =>
    show "<closure " ++ c.source.name ++ ":" ++ c.lambda.span.text ++ ">" =
      "<closure " ++ c'.source.name ++ ":" ++ c'.lambda.span.text ++ ">"
    rw [(ρ.source_same h.source).1, h.lambda]
  | _ => rfl

namespace Value.Alike

variable {ρ : Matching} {v v' w w' key key' : Value}

/-- Alike values are of one kind. -/
theorem kind_eq (h : v.Alike ρ v') : v.kind = v'.kind := by
  cases h <;> rfl

/-- They are true together. -/
theorem truthy_eq (h : v.Alike ρ v') : v.truthy = v'.truthy := by
  cases h <;> rfl

theorem isContainer_eq (h : v.Alike ρ v') : v.isContainer = v'.isContainer := by
  cases h <;> rfl

/-- **Equality looks the same**, although it compares numbers. -/
theorem same_eq (h : v.Alike ρ v') (k : w.Alike ρ w') : v.same w = v'.same w' := by
  induction h generalizing w w' with
  | text => cases k <;> rfl
  | number => cases k <;> rfl
  | bool => cases k <;> rfl
  | @list vs vs' length items ih =>
    cases k with
    | @list ws ws' length' items' =>
      have all : List.Forall₂ (fun v v' => ∀ {w w'}, w.Alike ρ w' → v.same w = v'.same w') vs vs' :=
        List.forall₂_iff_zip.mpr ⟨length, fun hm _ _ k => ih _ _ hm k⟩
      have others : Values ρ ws ws' := (Value.Alike.list length' items').items
      show sameItems vs ws = sameItems vs' ws'
      clear ih items items' length length'
      induction all generalizing ws ws' with
      | nil => cases others <;> rfl
      | cons same _ ih =>
        cases others with
        | nil => rfl
        | cons k others => exact congrArg₂ and (same k) (ih others)
    | _ => rfl
  | @map es es' keys entries ih =>
    cases k with
    | @map fs fs' keys' entries' =>
      have all : Table.Alike (fun v v' => ∀ {w w'}, w.Alike ρ w' → v.same w = v'.same w') es es' :=
        tableOf keys fun e e' hm _ _ k => ih e e' hm k
      have others : Table.Alike (Value.Alike ρ) fs fs' := (Value.Alike.map keys' entries').entries
      show sameEntries es fs = sameEntries es' fs'
      clear ih entries entries' keys keys'
      induction all generalizing fs fs' with
      | nil => cases others <;> rfl
      | @cons e e' _ _ same _ ih =>
        cases others with
        | nil => rfl
        | @cons f f' _ _ k others =>
          obtain ⟨key, a⟩ := e
          obtain ⟨key', a'⟩ := e'
          obtain ⟨other, b⟩ := f
          obtain ⟨other', b'⟩ := f'
          obtain ⟨rfl, same⟩ := same
          obtain ⟨rfl, k⟩ := k
          exact congrArg₂ and (congrArg (and _) (same k)) (ih others)
    | _ => rfl
  | function h =>
    cases k with
    | function k => exact h.same_eq k
    | _ => rfl
  | ns h =>
    cases k with
    | ns k => exact decide_eq_decide.mpr (h.visible.unique k.visible)
    | _ => rfl
  | exception id _ =>
    cases k with
    | exception id' _ => exact decide_eq_decide.mpr (id.unique id')
    | _ => rfl

/-- What is shown of the parts is shown of the whole. -/
theorem repr_eq_of (h : v.Alike ρ v') (hd : v.display = v'.display) : v.repr = v'.repr := by
  cases h with
  | text s => rfl
  | _ => exact hd

/-- **They look the same** when shown. -/
theorem display_eq (h : v.Alike ρ v') : v.display = v'.display := by
  induction h with
  | text s => rfl
  | number n => rfl
  | bool b => rfl
  | @list vs vs' length items ih =>
    have all : List.Forall₂ (fun v v' => v.repr = v'.repr) vs vs' :=
      List.forall₂_iff_zip.mpr ⟨length, fun hm => (items _ _ hm).repr_eq_of (ih _ _ hm)⟩
    have shown : vs.map repr = vs'.map repr := by
      rwa [← List.forall₂_eq_eq_eq, List.forall₂_map_left_iff, List.forall₂_map_right_iff]
    show "[" ++ _ ++ "]" = "[" ++ _ ++ "]"
    rw [reprItems_eq, reprItems_eq, shown]
  | @map es es' keys entries ih =>
    have all : Table.Alike (fun v v' => v.repr = v'.repr) es es' :=
      tableOf keys fun e e' hm => (entries e e' hm).repr_eq_of (ih e e' hm)
    have shown : reprEntries es = reprEntries es' := by
      rw [reprEntries_eq, reprEntries_eq, ← List.forall₂_eq_eq_eq, List.forall₂_map_left_iff,
        List.forall₂_map_right_iff]
      exact all.imp fun e e' he => by rw [he.1, he.2]
    cases es with
    | nil =>
      cases es' with
      | nil => rfl
      | cons => exact nomatch keys
    | cons =>
      cases es' with
      | nil => exact nomatch keys
      | cons => exact congrArg (fun shown => "[" ++ String.intercalate " " shown ++ "]") shown
  | function h => exact h.text_eq
  | ns h => rfl
  | exception id h =>
    show "<exception: " ++ _ ++ ">" = "<exception: " ++ _ ++ ">"
    rw [h.fault]

/-- They are shown as the same text. -/
theorem repr_eq (h : v.Alike ρ v') : v.repr = v'.repr := h.repr_eq_of h.display_eq

/-! ## Values as numbers, words and keys -/

/-- They are the same number, or none. -/
theorem toNumber_eq (h : v.Alike ρ v') : v.toNumber = v'.toNumber := by
  cases h <;> rfl

/-- They make the same word of a command, or none. -/
theorem toWord_eq (h : v.Alike ρ v') : v.toWord = v'.toWord := by
  cases h <;> rfl

/-- They are the same key of a map, or none. -/
theorem toKey_eq (h : v.Alike ρ v') : v.toKey = v'.toKey := by
  cases h <;> rfl

/-- They are the same index of a list, or none. -/
theorem toIndex_eq (h : v.Alike ρ v') : v.toIndex = v'.toIndex := by
  have shown := h.repr_eq
  cases h with
  | text => rfl
  | number => rfl
  | _ => exact congrArg (fun s => Except.error (Fault.badIndex s)) shown

theorem toPosition_eq (h : v.Alike ρ v') (length : Nat) :
    v.toPosition length = v'.toPosition length := by
  unfold Value.toPosition
  rw [h.toIndex_eq]

/-! ## Elements -/

/-- Alike values have alike elements, or the same reason to have none. -/
theorem elements (h : v.Alike ρ v') : Except.Alike (Values ρ) v.elements v'.elements := by
  cases h with
  | text s => exact .ok (List.forall₂_same.mpr fun v hv => by
      obtain ⟨c, -, rfl⟩ := List.mem_map.mp hv
      exact .text _)
  | list length items => exact .ok (Value.Alike.list length items).items
  | @map es es' keys entries =>
    refine .ok ?_
    have names : Table.Alike (Value.Alike ρ) es es' := (Value.Alike.map keys entries).entries
    show List.Forall₂ (Value.Alike ρ) _ _
    rw [List.forall₂_map_left_iff, List.forall₂_map_right_iff]
    exact names.imp fun e e' he => he.1 ▸ .text _
  | _ => exact .error _

/-- **An element of alike values is alike.** -/
theorem index (h : v.Alike ρ v') (hkey : key.Alike ρ key') :
    Except.Alike (Value.Alike ρ) (v.index key) (v'.index key') := by
  cases h with
  | @list vs vs' length items =>
    have all : Values ρ vs vs' := (Value.Alike.list length items).items
    unfold Value.index
    dsimp only
    rw [hkey.toPosition_eq, length]
    refine (Except.Alike.refl _).bind fun i j hij => .ok ?_
    subst hij
    rw [List.getD_eq_getElem?_getD, List.getD_eq_getElem?_getD]
    clear items length
    induction all generalizing i with
    | nil => exact .text ""
    | cons first _ ih =>
      cases i with
      | zero => exact first
      | succ i => exact ih i
  | @map es es' keys entries =>
    have all : Table.Alike (Value.Alike ρ) es es' := (Value.Alike.map keys entries).entries
    unfold Value.index
    dsimp only
    rw [hkey.toKey_eq]
    refine (Except.Alike.refl _).bind fun k l hkl => ?_
    subst hkl
    have found := all.find? k
    cases hes : Table.find? es k <;> cases hes' : Table.find? es' k <;> rw [hes, hes'] at found
    · exact .error _
    · exact nomatch found
    · exact nomatch found
    · cases found with
      | some alike => exact .ok alike
  | text s =>
    unfold Value.index
    dsimp only
    rw [hkey.toPosition_eq]
    refine (Except.Alike.refl _).bind fun i j hij => .ok ?_
    subst hij
    exact .text _
  | _ => exact .error _

/-- With an element replaced, alike values stay alike. -/
theorem assoc (h : v.Alike ρ v') (hkey : key.Alike ρ key') (hw : w.Alike ρ w') :
    Except.Alike (Value.Alike ρ) (v.assoc key w) (v'.assoc key' w') := by
  cases h with
  | @list vs vs' length items =>
    have all : Values ρ vs vs' := (Value.Alike.list length items).items
    unfold Value.assoc
    dsimp only
    rw [hkey.toPosition_eq, length]
    refine (Except.Alike.refl _).bind fun i j hij => .ok (ofItems ?_)
    subst hij
    clear items length
    induction all generalizing i with
    | nil => exact .nil
    | cons first rest ih =>
      cases i with
      | zero => exact .cons hw rest
      | succ i => exact .cons first (ih i)
  | @map es es' keys entries =>
    have all : Table.Alike (Value.Alike ρ) es es' := (Value.Alike.map keys entries).entries
    unfold Value.assoc
    dsimp only
    rw [hkey.toKey_eq]
    refine (Except.Alike.refl _).bind fun k l hkl => .ok (ofEntries ?_)
    subst hkl
    exact all.insert k hw
  | function h => exact .error _
  | ns h => exact .error _
  | exception id h => exact .error _
  | _ => exact .error _

/-- And with one removed. -/
theorem dissoc (h : v.Alike ρ v') (hkey : key.Alike ρ key') :
    Except.Alike (Value.Alike ρ) (v.dissoc key) (v'.dissoc key') := by
  cases h with
  | @map es es' keys entries =>
    have all : Table.Alike (Value.Alike ρ) es es' := (Value.Alike.map keys entries).entries
    unfold Value.dissoc
    dsimp only
    rw [hkey.toKey_eq]
    refine (Except.Alike.refl _).bind fun k l hkl => .ok (ofEntries ?_)
    subst hkl
    exact all.erase k
  | _ => exact .error _

/-! ## Paths -/

variable {path path' : List Value}

/-- The same along a path of any depth. -/
theorem setPath (h : v.Alike ρ v') (hw : w.Alike ρ w') (hpath : Values ρ path path') :
    Except.Alike (Value.Alike ρ) (v.setPath path w) (v'.setPath path' w') := by
  unfold Value.setPath
  generalize 1 = level
  induction hpath generalizing v v' level with
  | nil => exact .ok hw
  | cons hkey rest ih =>
    cases rest with
    | nil => exact (h.assoc hkey hw).mapError _
    | cons hkey' rest =>
      refine ((h.index hkey).mapError _).bind fun child child' hchild => ?_
      refine (ih hchild (level + 1)).bind fun new new' hnew => ?_
      exact (h.assoc hkey hnew).mapError _

/-- A path leads somewhere in both or in none. -/
theorem checkPath (h : v.Alike ρ v') (hpath : Values ρ path path') :
    v.checkPath path = v'.checkPath path' := by
  unfold Value.checkPath
  generalize 1 = level
  induction hpath generalizing v v' level with
  | nil => rfl
  | @cons key key' path path' hkey rest ih =>
    unfold Value.checkPathFrom
    have empty : path.isEmpty = path'.isEmpty := by
      cases rest <;> rfl
    rw [h.isContainer_eq, h.kind_eq, empty]
    split
    · rfl
    · split
      · rfl
      · have child : Except.Alike (Value.Alike ρ) (blame level (v.index key))
            (blame level (v'.index key')) := (h.index hkey).mapError _
        generalize blame level (v.index key) = found at child
        generalize blame level (v'.index key') = found' at child
        cases child with
        | ok hchild => exact ih hchild (level + 1)
        | error e => rfl

/-- An element can be removed along a path in both or in none. -/
theorem removePath (h : v.Alike ρ v') (hpath : Values ρ path path') :
    Except.Alike (Value.Alike ρ) (v.removePath path) (v'.removePath path') := by
  unfold Value.removePath
  generalize 1 = level
  induction hpath generalizing v v' level with
  | nil => exact .ok h
  | cons hkey rest ih =>
    cases rest with
    | nil => exact (h.dissoc hkey).mapError _
    | cons hkey' rest =>
      refine ((h.index hkey).mapError _).bind fun child child' hchild => ?_
      refine (ih hchild (level + 1)).bind fun new new' hnew => ?_
      exact (h.assoc hkey hnew).mapError _

end Value.Alike

end ValueShell
