/-
  Scoped code finds its names.

  Every rule of the evaluator keeps the world sound, given a runner for what is inside that does.  What
  the frame of an operation covers before it is the table it was compiled from, and after it the table
  that compilation went on with.  Expressions, and operations that declare nothing, are at home nowhere.

  An assignment is the one place where the table is ahead of the scopes: it counts a plain name as
  declared although the name may stand for a builtin, to which nothing is ever bound.  Either such a name
  is taken early, and then it is known to be one of those, or nothing looks at the table before the
  targets are written; and writing to a builtin fails.
-/
import ValueShell.Proofs.Evaluation
import ValueShell.Proofs.Triple

namespace ValueShell

open Eval

/-- **A runner that keeps the world sound.** -/
structure Runner.Faithful (g : Ground) (r : Runner) : Prop where
  operation : ∀ {homes home op f t t'}, op.Scoped g.early t t' →
    (home = some f.localScope ∨ op.Quiet) →
      Triple g homes home (f.Covers g homes t) (r.operation op f)
        fun _ => f.Covers g homes t'
  expr : ∀ {homes e f t}, Expr.Scoped g.early t e →
    Triple g homes none (f.Covers g homes t) (r.expr e f) fun vs => World.Admits g homes vs
  call : ∀ {homes callable args mode f},
    Triple g homes none
      (fun w => f.setting.builtins = g.builtins ∧ w.Admits g homes (.function callable :: args))
      (r.call callable args mode f) fun _ _ => True
  loop : ∀ {homes : List ScopeId} {P : World → Prop} {step} [Stable P],
    Triple g homes none P step (fun _ _ => True) →
      Triple g homes none P (r.loop step) fun _ _ => True

section Names

variable {g : Ground} {homes : List ScopeId} {f : Frame} {t : ScopeTable}

/-! ## Names -/

/-- **A variable that may be read is found.** -/
theorem triple_readVariable (text : String)
    (known : t.canRead (Reference.ofText text).ns (Reference.ofText text).name = true) :
    Triple g homes none (f.Covers g homes t)
      (readVariable f (Reference.ofText text).ns (Reference.ofText text).name)
      fun v w => w.Admits g homes [v] := by
  refine triple_get fun w₀ => ?_
  split
  · next place hplace =>
    refine (triple_pure fun w hp => hp).weaken (fun w hs hp => ?_) fun _ _ _ h => h
    obtain ⟨rfl, -⟩ := hp
    exact .only (hs.valueAt hplace)
  · next missing =>
    -- a reference that finds nothing is one the scope check does not vouch for
    refine triple_fault fun w hs hp => ⟨text, rfl, ?_⟩
    obtain ⟨rfl, hc⟩ := hp
    exact hs.open_of_missing hc known missing

/-- A command is found, or is one of the system. -/
theorem triple_findCommand {P : World → Prop} (name : String) :
    Triple g homes none P (findCommand f name)
      fun callable w => w.Admits g homes [.function callable] := by
  unfold findCommand
  refine triple_get fun w₀ => ?_
  split
  · exact triple_pure fun _ _ => .only .external
  · next place hplace =>
    split
    · next callable hv =>
      refine (triple_pure fun w hp => hp).weaken (fun w hs hp => ?_) fun _ _ _ h => h
      obtain ⟨rfl, -⟩ := hp
      have admitted := hs.valueAt hplace
      rw [hv] at admitted
      exact .only admitted
    · exact triple_ordinary (by trivial)

/-- **A closure is founded** where it is made: the scope it captures has all that the frame finds. -/
theorem triple_close {l : Lambda} (hl : l.Scoped g.early t) (isFunction : Bool) :
    Triple g homes none (f.Covers g homes t) (close f l isFunction)
      fun callable w => w.Admits g homes [.function callable] := by
  refine triple_bind (Q := fun captured w => ∀ id, w.Admits g homes
    [.function (.closure ⟨id, l, captured, f.source, isFunction⟩)]) ?_ fun captured => ?_
  -- the captured scope is fresh, so that nobody is at home there, and holds both scopes of the frame
  · refine triple_updateStore (fun w => .newScope none w _) fun w hs hc => ?_
    refine ⟨hs.newScope _, fun id => .only (.closure ?_)⟩
    refine {
      sealed := fun hm => Nat.lt_irrefl _ (hs.inside _ hm)
      known := ?_
      compiled := ⟨t, hc.names, fun name hn => ?_, hl⟩ }
    · show w.store.scopes.size < (w.store.scopes.push _).size
      rw [Array.size_push]
      omega
    · have found : (w.store.overlay f.upScope f.localScope).2.Binds
          ⟨w.store.scopes.size⟩ name ↔
          w.store.Binds f.localScope name ∨ w.store.Binds f.upScope name := by
        rw [Store.Binds, Store.find?, Store.overlay, Store.scope_newScope_self,
          Table.isSome_find?_overlay]
        simp [Store.Binds, Store.find?]
      exact (or_assoc.mpr (hc.has hn)).imp_left found.mpr
  · refine triple_bind triple_newIdentity fun id => triple_pure fun w hp => ?_
    exact hp.1.2 id

end Names

namespace Runner

variable {g : Ground} {r : Runner} (hr : r.Faithful g)
include hr

/-! ## Expressions -/

section Expressions

variable {homes : List ScopeId} {f : Frame} {t : ScopeTable}

/-- A row of expressions. -/
theorem triple_exprs (es : List Expr) (hes : ∀ e ∈ es, e.Scoped g.early t) :
    Triple g homes none (f.Covers g homes t) (r.exprs f es)
      fun vs w => w.Admits g homes vs := by
  induction es with
  | nil => exact triple_pure fun _ _ => .nil
  | cons e es ih =>
    refine triple_bind (hr.expr (hes e List.mem_cons_self)) fun found => ?_
    refine triple_bind ((ih fun x hx => hes x (List.mem_cons_of_mem _ hx)).pre fun _ hp => hp.1)
      fun rest => triple_pure fun w hp => ?_
    exact hp.1.2.append hp.2

/-- An expression with one value. -/
theorem triple_single (what : String) {e : Expr} (he : e.Scoped g.early t) :
    Triple g homes none (f.Covers g homes t) (r.single what e f)
      fun v w => w.Admits g homes [v] := by
  refine triple_bind (hr.expr he) fun found => ?_
  split
  · exact triple_pure fun _ hp => hp.2
  · exact triple_located _ (triple_ordinary (by trivial))

/-- An expression whose value is called. -/
theorem triple_callable {e : Expr} (he : e.Scoped g.early t) :
    Triple g homes none (f.Covers g homes t) (r.callable e f)
      fun callable w => w.Admits g homes [.function callable] := by
  refine triple_bind (hr.expr he) fun found => ?_
  split
  · exact triple_pure fun _ hp => hp.2
  · exact triple_ordinary (by trivial)
  · exact triple_ordinary (by trivial)

/-- An index into each of the values. -/
theorem triple_indexAll (heads : List Value) {bracket : IndexBracket}
    (hb : ∀ e ∈ bracket.items, e.Scoped g.early t) :
    Triple g homes none (fun w => f.Covers g homes t w ∧ w.Admits g homes heads)
      (r.indexAll f heads bracket) fun vs w => w.Admits g homes vs := by
  refine triple_bind ((triple_exprs hr bracket.items hb).pre fun _ hp => hp.1) fun keys => ?_
  refine triple_bind (Q := fun found w => ∀ vs, vs ∈ found → w.Admits g homes vs)
    (triple_mapM heads fun head hh => ?_) fun found => triple_pure fun w hp => ?_
  · refine (triple_mapM (Q := fun v w => w.Admits g homes [v]) keys fun key _ => ?_).post ?_
    · refine triple_located _ (triple_ofExcept (Value.index_fails head key) fun v hv w hp => ?_)
      exact .only ((hp.1.2 head hh).index hv)
    · exact fun found w hw v hv => (hw v hv).head
  · intro v hv
    obtain ⟨vs, hvs, hv⟩ := List.mem_flatten.mp hv
    exact hp.2 vs hvs v hv

/-- The parts of a word, joined to what is there already. -/
theorem triple_compoundOnto (parts : List Expr) (hp : ∀ e ∈ parts, e.Scoped g.early t)
    (texts : List String) :
    Triple g homes none (f.Covers g homes t) (r.compoundOnto f texts parts)
      fun _ _ => True := by
  induction parts generalizing texts with
  | nil => exact triple_pure fun _ _ => trivial
  | cons part parts ih =>
    refine triple_bind (hr.expr (hp part List.mem_cons_self)).any fun values => ?_
    refine triple_then (triple_ofExcept (appendEach_fails texts values)
      fun _ _ _ hc => hc.1) fun texts => ?_
    exact ih (fun x hx => hp x (List.mem_cons_of_mem _ hx)) texts

/-- The pairs of a map, added to the entries that are there already. -/
theorem triple_mapOnto (pairs : List (Expr × Expr)) (hk : ∀ p ∈ pairs, p.1.Scoped g.early t)
    (hv : ∀ p ∈ pairs, p.2.Scoped g.early t) (entries : Table Value) :
    Triple g homes none
      (fun w => f.Covers g homes t w ∧ w.Admits g homes (entries.map Prod.snd))
      (r.mapOnto f entries pairs) fun found w => w.Admits g homes (found.map Prod.snd) := by
  -- what is in the map so far is admitted, and so is what an insertion puts there
  induction pairs generalizing entries with
  | nil => exact triple_pure fun _ hp => hp.2
  | cons pair pairs ih =>
    obtain ⟨key, value⟩ := pair
    refine triple_bind ((triple_single hr "map key" (hk (key, value) List.mem_cons_self)).pre
      fun _ hp => hp.1).any fun k => ?_
    refine triple_bind ((triple_single hr "map value" (hv (key, value) List.mem_cons_self)).pre
      fun _ hp => hp.1.1) fun v => ?_
    refine triple_then (triple_ofExcept (Value.toKey_fails k) fun _ _ _ h => h) fun k => ?_
    refine (ih (fun p hp => hk p (List.mem_cons_of_mem _ hp))
      (fun p hp => hv p (List.mem_cons_of_mem _ hp)) (entries.insert k v)).pre fun w hp => ?_
    refine ⟨hp.1.1.1, fun x hx => ?_⟩
    obtain ⟨e, he, rfl⟩ := List.mem_map.mp hx
    rcases Table.mem_insert he with rfl | he
    · exact hp.2.head
    · exact hp.1.1.2 _ (List.mem_map_of_mem he)

/-- The operation in a capture declares nothing, and what it put out is in its queue. -/
theorem triple_capture {op : Operation} {t' : ScopeTable} (ho : op.Scoped g.early t t')
    (quiet : op.Quiet) :
    Triple g homes none (f.Covers g homes t) (r.capture op f)
      fun vs w => w.Admits g homes vs := by
  refine triple_bind triple_newQueue fun q => triple_bind triple_newBuffer fun b => ?_
  refine triple_then ((hr.operation ho (.inr quiet)).pre fun w hp => hp.1.1.withPorts _).any
    fun _ => triple_get fun w₀ => ?_
  refine (triple_pure fun w hp => hp).weaken (fun w hs hp => ?_) fun _ _ _ h => h
  obtain ⟨rfl, -⟩ := hp
  exact Streams.carries_captured hs.queues q b

/-- **An expression is evaluated without missing a name.** -/
theorem triple_evaluate {e : Expr} (he : e.Scoped g.early t) :
    Triple g homes none (f.Covers g homes t) (r.evaluate e f)
      fun vs w => w.Admits g homes vs := by
  refine triple_located _ ?_
  cases he with
  | literal => exact triple_pure fun _ _ => .only .text
  | reference text known =>
    refine triple_then (triple_readVariable text known) fun v => ?_
    split
    · exact triple_ofExcept (Value.elements_fails v) fun vs hvs w hp => hp.head.elements hvs
    · exact triple_pure fun _ hp => hp
  | index inner all =>
    refine triple_bind (hr.expr inner) fun heads => ?_
    exact triple_foldlM _ (fun vs b hb => triple_indexAll hr vs (all b hb)) heads
  | list all =>
    exact triple_then (triple_exprs hr _ all) fun vs => triple_pure fun w hp => .only (.list hp)
  | map keys values =>
    refine triple_then ((triple_mapOnto hr _ keys values []).pre fun _ hc => ⟨hc, .nil⟩)
      fun entries => triple_pure fun w hp => .only (.map fun e he => ?_)
    exact hp _ (List.mem_map_of_mem he)
  | lambda inner =>
    exact triple_then (triple_close inner false) fun callable => triple_pure fun w hp => hp
  | capture quiet inner => exact triple_capture hr inner quiet
  | compound all =>
    refine triple_then (triple_compoundOnto hr _ all _) fun texts => triple_pure fun w _ v hv => ?_
    obtain ⟨s, -, rfl⟩ := List.mem_map.mp hv
    exact .text
  | sequence all => exact triple_exprs hr _ all

end Expressions

end Runner

/-! ## Targets -/

/-- The destination is a variable that cannot be assigned. -/
def Destination.Constant (d : Destination) (w : World) : Prop :=
  ∃ c cell, d = .place (.cell c) ∧ w.store.cell? c = some cell ∧ cell.readOnly = true

/-- A destination stays constant. -/
theorem Destination.Constant.grows {home : Option ScopeId} {w w' : World} (hg : Grows home w w')
    {d : Destination} (h : d.Constant w) : d.Constant w' := by
  obtain ⟨c, cell, hd, hc, hro⟩ := h
  exact ⟨c, cell, hd, hg.constant c cell hc hro, hro⟩

instance {d : Destination} : Stable d.Constant := ⟨fun hg h => h.grows hg⟩

/-- **The targets are resolved**: either the frame covers the table after them, or the assignment is
going to fail, because one of the names stands for a builtin and is not taken early. -/
def Frame.Ready (g : Ground) (homes : List ScopeId) (f : Frame) (t t' : ScopeTable)
    (ts : List Target) (resolved : List Resolved) (w : World) : Prop :=
  f.Covers g homes t' w ∨
    f.Covers g homes t w ∧ (∃ x ∈ ts, ∃ name ∈ x.plainName?, ¬g.early name) ∧
      ∃ x ∈ resolved, x.destination.Constant w

instance {g : Ground} {homes : List ScopeId} {f : Frame} {t t' : ScopeTable} {ts : List Target}
    {resolved : List Resolved} : Stable (f.Ready g homes t t' ts resolved) :=
  ⟨fun hg h => h.imp (·.grows hg) fun ⟨hc, hn, x, hx, hd⟩ => ⟨hc.grows hg, hn, x, hx, hd.grows hg⟩⟩

/-- All resolved targets, in order. -/
def ResolvedTargets.all (t : ResolvedTargets) : List Resolved := t.fixed ++ t.rest.toList

namespace Target

/-- No name is taken early among targets without brackets. -/
theorem earlyNames_cons (x : Target) (ts : List Target) :
    earlyNames (x :: ts) = (if ts.any isElement then x.plainName?.toList else []) ++ earlyNames ts :=
  rfl

/-- A name that is declared early is that of a target. -/
theorem plainName_of_mem_earlyNames {name : String} {ts : List Target}
    (h : name ∈ earlyNames ts) : ∃ x ∈ ts, name ∈ x.plainName? := by
  induction ts with
  | nil => exact nomatch h
  | cons x ts ih =>
    rw [earlyNames_cons] at h
    rcases List.mem_append.mp h with h | h
    · split at h
      · exact ⟨x, List.mem_cons_self, Option.mem_toList.mp h⟩
      · exact nomatch h
    · obtain ⟨y, hy, hn⟩ := ih h
      exact ⟨y, List.mem_cons_of_mem _ hy, hn⟩

end Target

section Targets

variable {g : Ground} {homes : List ScopeId} {f : Frame} {t t' : ScopeTable}

/-- A fresh variable in the local scope. -/
theorem triple_declareHere {α : Type} (name : String) (result : CellId → α) :
    Triple g homes (some f.localScope) (f.Covers g homes t)
      (updateStore fun s =>
        (result (s.declare name).1, (s.declare name).2.bind f.localScope name (s.declare name).1))
      fun _ w => f.Covers g homes (t.declare name) w := by
  have fresh (w : World) : Grows none w { w with store := (w.store.declare name).2 } :=
    (evolves_declare name w : Evolves _ none [] _ _).grows
  refine triple_updateStore (fun w => ((fresh w).widen _).trans (.bind rfl _ name _))
    fun w hs hc => ?_
  have covered := hc.grows (fresh w)
  exact ⟨(hs.declare name).bind covered.home name _, covered.bind name _⟩

/-- **A name that is resolved** is found from then on, or else it is one that cannot be assigned. -/
theorem triple_resolveOrDeclare {ns name : String} (h : t.assign? ns name = some t') :
    Triple g homes (some f.localScope) (f.Covers g homes t) (resolveOrDeclare f ns name)
      fun place w => f.Covers g homes t' w ∨
        (ns = "" ∧ ¬g.early name) ∧ f.Covers g homes t w ∧ (Destination.place place).Constant w := by
  refine triple_get fun w₀ => ?_
  split
  · next place hplace =>
    refine (triple_pure fun w hp => hp).weaken (fun w hs hp => ?_) fun _ _ _ h => h
    obtain ⟨rfl, hc⟩ := hp
    rcases ScopeTable.assign?_cases h with ⟨rfl | rfl, rfl⟩ | ⟨-, rfl⟩
    · -- an unqualified name: found locally, above, or among the builtins
      change (f.findPlain? w.store name).map Place.cell = some place at hplace
      obtain ⟨c, hfound, rfl⟩ := Option.map_eq_some_iff.mp hplace
      rcases hl : w.store.find? f.localScope name with _ | c'
      · rcases hu : w.store.find? f.upScope name with _ | c'
        · rw [Frame.findPlain?, hl, hu, hc.builtins] at hfound
          change w.store.find? g.builtins name = some c at hfound
          have builtin : name ∈ g.names := by
            rw [← hs.binds_builtin, Store.Binds, hfound]
            rfl
          by_cases he : g.early name
          · exact .inl (hc.declare (.inr (.inr ⟨builtin, he⟩)))
          · obtain ⟨cell, hcell, hro⟩ := hs.constant name c hfound
            exact .inr ⟨⟨rfl, he⟩, hc, c, cell, rfl, hcell, hro⟩
        · exact .inl (hc.declare (.inr (.inl (by simp [Store.Binds, hu]))))
      · exact .inl (hc.declare (.inl (by simp [Store.Binds, hl])))
    · change (w.store.find? f.localScope name).map Place.cell = some place at hplace
      obtain ⟨c, hfound, -⟩ := Option.map_eq_some_iff.mp hplace
      exact .inl (hc.declare (.inl (by simp [Store.Binds, hfound])))
    · exact .inl hc
  · split
    · next hns =>
      have ht : t' = t.declare name := by
        rcases ScopeTable.assign?_cases h with ⟨-, ht⟩ | ⟨⟨h₁, h₂⟩, -⟩
        · exact ht
        · exact absurd hns (by simp [h₁, h₂])
      exact ((triple_declareHere name Place.cell).pre fun _ hp => hp.2).post
        fun _ _ hc => .inl (ht ▸ hc)
    · exact triple_ordinary (by trivial)

/-- Resolving a name never uncovers one. -/
theorem triple_resolveOrDeclare_keeps (ns name : String) :
    Triple g homes (some f.localScope) (f.Covers g homes t) (resolveOrDeclare f ns name)
      fun _ w => f.Covers g homes t w := by
  refine triple_get fun w₀ => ?_
  split
  · exact triple_pure fun _ hp => hp.2
  · split
    · exact ((triple_declareHere name Place.cell).pre fun _ hp => hp.2).post
        fun _ _ hc => hc.shrink (t.sameOuter_declare name) (t.innermost_subset_declare name)
    · exact triple_ordinary (by trivial)

end Targets

namespace Resolved

variable {g : Ground} {homes : List ScopeId}

/-- A write fails with an ordinary fault, or not at all. -/
theorem triple_write (x : Resolved) (v : Value) (f : Frame) :
    Triple g homes none (World.Admits g homes [v]) (x.write v f) fun _ _ => True := by
  refine triple_then (Q := fun r _ => FailsWith ElementError.Ordinary r) ?_ fun r => ?_
  · cases x.destination with
    | place p =>
      have whole {r : Except Fault Unit} (h : FailsWith Fault.Ordinary r) :
          FailsWith ElementError.Ordinary (r.mapError ElementError.whole) :=
        failsWith_mapError h
      refine triple_then (Q := fun r _ => FailsWith Fault.Ordinary r) ?_
        fun r => triple_pure fun _ hr => whole hr
      cases p with
      | cell c =>
        exact triple_tryCell (fun cell => Cell.assign_fails cell v)
          fun cell cell' h => .inr ⟨v, h, fun w hv _ => hv.head⟩
      | transient _ => exact triple_pure fun _ _ => failsWith_ok
      | environment name => exact triple_tryEnvironment fun e => Environment.set_fails e name v
    | element c path =>
      refine triple_tryCell (fun cell => Cell.assignElement_fails cell path v)
        fun cell cell' h => .inr ?_
      obtain ⟨whole, hpath, ha⟩ := Cell.assignElement_eq_ok h
      exact ⟨whole, ha, fun w hv hcell => hcell.setPath hv.head hpath⟩
  · split
    · exact triple_pure fun _ _ => trivial
    · next e =>
      exact triple_located _ (triple_fault fun _ _ h => Ground.expects_of_ordinary (h e rfl))

/-- A constant refuses to be written. -/
theorem write_constant {x : Resolved} {w : World} (h : x.destination.Constant w) (v : Value)
    (f : Frame) (u : Unit) : (x.write v f w).1 ≠ .ok u := by
  obtain ⟨d, target⟩ := x
  obtain ⟨c, cell, rfl, hc, hro⟩ := h
  have refused : cell.assign v = .error .readOnly := by rw [Cell.assign, if_pos hro]
  simp only [write, Destination.write, writePlace, bind_run, tryCell_run, Store.changeCell, hc,
    refused]
  intro ended
  cases ended

/-- A write to a constant fails. -/
theorem triple_write_constant (x : Resolved) (v : Value) (f : Frame) :
    Triple g homes none (fun w => x.destination.Constant w ∧ w.Admits g homes [v]) (x.write v f)
      fun _ _ => False where
  grows := (triple_write x v f : Triple g homes none _ _ _).grows
  keeps w hob hs hp :=
    ⟨((triple_write x v f).keeps w hob hs hp.2).1, fun u hu => write_constant hp.1 v f u hu⟩

theorem triple_writeEach (f : Frame) (xs : List Resolved) (vs : List Value) :
    Triple g homes none (World.Admits g homes vs) (writeEach f xs vs) fun _ _ => True := by
  induction xs generalizing vs with
  | nil => exact triple_pure fun _ _ => trivial
  | cons x xs ih =>
    cases vs with
    | nil => exact triple_pure fun _ _ => trivial
    | cons v vs =>
      exact triple_bind ((triple_write x v f).pre fun _ hv => .only hv.head) fun _ =>
        (ih vs).pre fun _ hp => hp.1.tail

/-- One constant among the destinations is enough. -/
theorem triple_writeEach_constant (f : Frame) {x : Resolved} (xs : List Resolved) (hx : x ∈ xs)
    (vs : List Value) (enough : xs.length ≤ vs.length) :
    Triple g homes none (fun w => x.destination.Constant w ∧ w.Admits g homes vs)
      (writeEach f xs vs) fun _ _ => False := by
  induction xs generalizing vs with
  | nil => exact nomatch hx
  | cons first xs ih =>
    cases vs with
    | nil => exact absurd enough (by simp)
    | cons v vs =>
      rcases List.mem_cons.mp hx with rfl | hx
      · refine triple_then ((triple_write_constant x v f).pre fun _ hp => ⟨hp.1, .only hp.2.head⟩)
          fun _ => triple_never (triple_writeEach f xs vs : Triple g homes none _ _ _).grows
      · exact triple_bind ((triple_write first v f).pre fun _ hp => .only hp.2.head) fun _ =>
          (ih hx vs (Nat.le_of_succ_le_succ enough)).pre fun _ hp => ⟨hp.1.1, hp.1.2.tail⟩

end Resolved

namespace Runner

variable {g : Ground} {r : Runner} (hr : r.Faithful g)

/-! ## Assignment -/

section Assignment

variable {homes : List ScopeId} {f : Frame} {t t' : ScopeTable}

include hr in
/-- The indices of an element's path. -/
theorem triple_elementPath (tooMany : Fault) (h : tooMany.Ordinary) (target : ElementTarget)
    (all : ∀ b ∈ target.brackets, ∀ i ∈ b.items, i.Scoped g.early t) :
    Triple g homes none (f.Covers g homes t) (r.elementPath f tooMany target)
      fun _ _ => True := by
  suffices ∀ level brackets, (∀ b ∈ brackets, ∀ i ∈ b.items, Expr.Scoped g.early t i) →
      Triple g homes none (f.Covers g homes t)
        (elementPath.go r f tooMany target level brackets) fun _ _ => True
    from this 1 target.brackets all
  intro level brackets hb
  induction brackets generalizing level with
  | nil => exact triple_pure fun _ _ => trivial
  | cons bracket rest ih =>
    refine triple_bind (triple_exprs hr _ (hb bracket List.mem_cons_self)).any fun keys => ?_
    split
    · refine triple_bind ((ih (level + 1) fun b hm => hb b (List.mem_cons_of_mem _ hm)).pre
        fun _ hp => hp.1) fun _ => triple_pure fun _ _ => trivial
    · exact triple_located _ (triple_ordinary h)

include hr in
/-- The base of an element is found, as the compiler has seen to it. -/
theorem triple_resolveElement {e : ElementTarget} (text : String)
    (base : e.ns = (Reference.ofText text).ns ∧ e.name = (Reference.ofText text).name)
    (known : t.canRead e.ns e.name)
    (all : ∀ b ∈ e.brackets, ∀ i ∈ b.items, Expr.Scoped g.early t i) :
    Triple g homes none (f.Covers g homes t) (r.resolveElement f e) fun _ _ => True := by
  refine triple_get fun w₀ => ?_
  split
  · next missing =>
    refine triple_fault fun w hs hp => ⟨text, by rw [base.1, base.2], ?_⟩
    obtain ⟨rfl, hc⟩ := hp
    rw [← base.1, ← base.2]
    exact hs.open_of_missing hc known missing
  · exact triple_located _ (triple_ordinary (by trivial))
  · refine triple_then ((triple_elementPath hr _ (by trivial) e all).pre fun _ hp => hp.2)
      fun path => triple_get fun w₁ => ?_
    split
    · next error herror =>
      exact triple_located _ (triple_ordinary (Value.checkPathFrom_fails _ _ _ error herror))
    · split
      · exact triple_pure fun _ _ => trivial
      · exact triple_pure fun _ _ => trivial

/-- Targets without brackets uncover nothing. -/
theorem triple_resolveEach_plain (ts : List Target) (plain : ∀ x ∈ ts, x.isElement = false) :
    Triple g homes (some f.localScope) (f.Covers g homes t) (r.resolveEach f ts)
      fun _ w => f.Covers g homes t w := by
  induction ts with
  | nil => exact triple_pure fun _ hp => hp
  | cons x ts ih =>
    cases x with
    | named ns name span =>
      refine triple_then (Q := fun _ => f.Covers g homes t) (triple_located _
        (triple_then (triple_resolveOrDeclare_keeps ns name) fun _ => triple_pure fun _ hp => hp))
        fun first => ?_
      exact triple_then (ih fun x hx => plain x (List.mem_cons_of_mem _ hx)) fun _ =>
        triple_pure fun _ hp => hp
    | element e => exact nomatch plain (.element e) List.mem_cons_self

include hr in
/-- **Targets are resolved** in the order in which they were compiled. -/
theorem triple_resolveEach (hc : r.Contained) (ts : List Target)
    (each : Target.ScopedEach g.early t ts t') (names : ∀ x ∈ Target.earlyNames ts, g.early x) :
    Triple g homes (some f.localScope) (f.Covers g homes t) (r.resolveEach f ts)
      fun resolved w => f.Ready g homes t t' ts resolved w := by
  induction ts generalizing t with
  | nil =>
    cases each
    exact triple_pure fun _ h => .inl h
  | cons x ts ih =>
    rw [Target.earlyNames_cons] at names
    have later : ∀ x ∈ Target.earlyNames ts, g.early x :=
      fun x hx => names x (List.mem_append_right _ hx)
    cases each with
    | @named _ t₁ _ ns name span _ first rest =>
      refine triple_then (Q := fun x w => f.Covers g homes t₁ w ∨ (ns = "" ∧ ¬g.early name) ∧
        f.Covers g homes t w ∧ x.destination.Constant w) ?_ fun x => ?_
      · exact triple_located _ (triple_then (triple_resolveOrDeclare first) fun place =>
          triple_pure fun _ hp => hp)
      · refine triple_or (triple_then (ih rest later) fun found => triple_pure fun w hp => ?_) ?_
        · rcases hp with hp | ⟨hcov, ⟨y, hy, hn⟩, z, hz, hconst⟩
          · exact .inl hp
          · have kept : f.Covers g homes t w := by
              rcases ScopeTable.assign?_cases first with ⟨-, rfl⟩ | ⟨-, rfl⟩
              · exact hcov.shrink (t.sameOuter_declare name) (t.innermost_subset_declare name)
              · exact hcov
            exact .inr ⟨kept, ⟨y, List.mem_cons_of_mem _ hy, hn⟩, z, List.mem_cons_of_mem _ hz,
              hconst⟩
        · -- the name is not taken early, so no target with brackets follows
          refine triple_given (fun w => ?_) fun ⟨hns, hearly⟩ => ?_
          · exact (stays_bind (stays_resolveEach hc f ts) fun _ => stays_pure _) w |>.grows
          have plain : ∀ x ∈ ts, x.isElement = false := by
            intro y hy
            cases hb : y.isElement with
            | false => rfl
            | true =>
              have any : ts.any Target.isElement = true := List.any_eq_true.mpr ⟨y, hy, hb⟩
              refine (hearly (names name (List.mem_append_left _ ?_))).elim
              simp [any, Target.plainName?, hns]
          refine triple_then (((triple_resolveEach_plain ts plain).frame
            fun w w' hg h => Destination.Constant.grows hg h).pre fun w hp => ⟨hp.2, hp.1⟩)
            fun found => triple_pure fun w hp => ?_
          refine .inr ⟨hp.2, ⟨_, List.mem_cons_self, name, ?_, hearly⟩, x, List.mem_cons_self, hp.1⟩
          simp [Target.plainName?, hns]
    | @element _ _ e _ text base known all rest =>
      refine triple_then (Q := fun _ => f.Covers g homes t) (triple_located _ (triple_then
        ((triple_resolveElement hr text base known all).stable.widen _)
        fun d => triple_pure fun _ hp => hp.1)) fun x => ?_
      refine triple_then (ih rest later) fun found => triple_pure fun w hp => ?_
      rcases hp with hp | ⟨hcov, ⟨y, hy, hn⟩, z, hz, hconst⟩
      · exact .inl hp
      · exact .inr ⟨hcov, ⟨y, List.mem_cons_of_mem _ hy, hn⟩, z, List.mem_cons_of_mem _ hz, hconst⟩

/-- Targets are resolved from left to right. -/
theorem resolveEach_append (r : Runner) (f : Frame) (xs ys : List Target) :
    r.resolveEach f (xs ++ ys) = (do
      let first ← r.resolveEach f xs
      return first ++ (← r.resolveEach f ys)) := by
  induction xs with
  | nil => simp [resolveEach]
  | cons x xs ih => simp [resolveEach, ih]

/-- Resolving the left side is resolving all of its targets in order. -/
theorem resolveTargets_all (f : Frame) (targets : Targets) :
    ResolvedTargets.all <$> r.resolveTargets f targets = r.resolveEach f targets.all := by
  obtain ⟨fixed, rest, span⟩ := targets
  cases rest with
  | none => simp [resolveTargets, Targets.all, ResolvedTargets.all]
  | some rest =>
    simp [resolveTargets, Targets.all, ResolvedTargets.all, resolveEach_append, resolveEach]

include hr in
/-- The targets of an assignment. -/
theorem triple_resolveTargets (hc : r.Contained) (targets : Targets)
    (each : Target.ScopedEach g.early t targets.all t')
    (names : ∀ x ∈ Target.earlyNames targets.all, g.early x) :
    Triple g homes (some f.localScope) (f.Covers g homes t) (r.resolveTargets f targets)
      fun resolved w => f.Ready g homes t t' targets.all resolved.all w :=
  triple_of_map (resolveTargets_all f targets ▸ triple_resolveEach hr hc targets.all each names)

include hr in
/-- The only target of a `for`, whose name is taken early. -/
theorem triple_onlyTarget (hc : r.Contained) {fault : Fault} (h : fault.Ordinary)
    (targets : Targets) (each : Target.ScopedEach g.early t targets.all t')
    (names : ∀ x ∈ targets.all, ∀ name ∈ x.plainName?, g.early name) :
    Triple g homes (some f.localScope) (f.Covers g homes t) (r.onlyTarget f fault targets)
      fun _ w => f.Covers g homes t' w := by
  have early : ∀ name ∈ Target.earlyNames targets.all, g.early name := by
    intro name hname
    obtain ⟨x, hx, hn⟩ := Target.plainName_of_mem_earlyNames hname
    exact names x hx name hn
  refine triple_then (Q := fun _ => f.Covers g homes t')
    ((triple_resolveTargets hr hc targets each early).post fun found w hp => ?_) fun found => ?_
  · exact hp.resolve_right fun ⟨_, ⟨x, hx, name, hn, hearly⟩, _⟩ => hearly (names x hx name hn)
  · split
    · exact triple_pure fun _ hp => hp
    · exact triple_ordinary h

omit hr in
/-- If the targets are written, none of them was a constant. -/
theorem triple_written {x : Eval Unit} {ts : List Target} {resolved : List Resolved}
    {values : List Value}
    (written : Triple g homes none (World.Admits g homes values) x fun _ _ => True)
    (refused : ∀ y ∈ resolved, Triple g homes none
      (fun w => y.destination.Constant w ∧ w.Admits g homes values) x fun _ _ => False) :
    Triple g homes none
      (fun w => f.Ready g homes t t' ts resolved w ∧ w.Admits g homes values) x
      fun _ w => f.Covers g homes t' w where
  grows := written.grows
  keeps w hob hs hp := by
    obtain ⟨hready, hv⟩ := hp
    obtain ⟨hs', -⟩ := written.keeps w hob hs hv
    refine ⟨hs', fun u hu => ?_⟩
    rcases hready with hcov | ⟨-, -, y, hy, hconst⟩
    · exact hcov.grows (written.grows w)
    · exact (((refused y hy).keeps w hob hs ⟨hconst, hv⟩).2 u hu).elim

include hr in
/-- **A whole assignment**: targets, values, writes. -/
theorem triple_assign (hc : r.Contained) (targets : Targets) (values : List Expr)
    (names : ∀ x ∈ Target.earlyNames targets.all, g.early x)
    (each : Target.ScopedEach g.early t targets.all t')
    (all : ∀ e ∈ values, e.Scoped g.early t) :
    Triple g homes (some f.localScope) (f.Covers g homes t) (r.assign targets values f)
      fun _ w => f.Covers g homes t' w := by
  refine triple_then (triple_resolveTargets hr hc targets each names) fun resolved => ?_
  have before (w : World) (h : f.Ready g homes t t' targets.all resolved.all w) :
      f.Covers g homes t w :=
    h.elim (fun h => h.shrink each.sameOuter each.innermost_subset) fun h => h.1
  refine triple_bind ((triple_exprs hr values all).pre before) fun values => ?_
  obtain ⟨fixed, rest⟩ := resolved
  dsimp only
  split
  · split
    · next hlen =>
      refine (triple_written (Resolved.triple_writeEach f fixed values) fun y hy => ?_).widen _
      refine Resolved.triple_writeEach_constant f fixed ?_ values (Nat.le_of_eq hlen.symm)
      simpa [ResolvedTargets.all] using hy
    · exact triple_ordinary (by trivial)
  · next rest =>
    split
    · next hlen =>
      have taken {w : World} (h : w.Admits g homes values) :
          w.Admits g homes (values.take fixed.length) :=
        h.subset (List.take_subset _ _)
      have left {w : World} (h : w.Admits g homes values) :
          w.Admits g homes [.list (values.drop fixed.length)] :=
        .only (.list fun v hv => h v (List.drop_subset _ _ hv))
      refine (triple_written (triple_bind ((Resolved.triple_writeEach f fixed _).pre
        fun _ h => taken h) fun _ => (Resolved.triple_write rest _ f).pre fun _ h => left h.1)
        fun y hy => ?_).widen _
      rcases List.mem_append.mp hy with hy | hy
      · refine triple_then ((Resolved.triple_writeEach_constant f fixed hy _ ?_).pre
          fun _ h => ⟨h.1, taken h.2⟩) fun _ =>
            triple_never (Resolved.triple_write rest _ f : Triple g homes none _ _ _).grows
        rw [List.length_take]
        omega
      · cases List.mem_singleton.mp hy
        exact triple_bind ((Resolved.triple_writeEach f fixed _).pre fun _ h => taken h.2)
          fun _ => (Resolved.triple_write_constant rest _ f).pre fun _ h => ⟨h.1.1, left h.1.2⟩
    · exact triple_ordinary (by trivial)

end Assignment

end Runner

end ValueShell
