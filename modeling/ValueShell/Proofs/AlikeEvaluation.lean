/-
  Every evaluation agrees with itself.

  The same code, run in frames and worlds that are alike, does the same: nothing in the evaluator depends on
  the numbers of things.  Each rule of the evaluator is shown to keep this up, given runners for what is
  inside that do (`Runner.Alike`).  The code has to be admitted by the matching, and so has the code of
  closures and of modules.
-/
import ValueShell.Proofs.Agreement

namespace ValueShell

open Eval

/-- **Two runners that are alike** on code that is admitted. -/
structure Runner.Alike (ρ : Matching) (r r' : Runner) : Prop where
  operation : ∀ op f f', f.Alike ρ f' → (Code.operation op).Each ρ.Admits →
    Eval.Agree ρ (fun _ _ => True) (r.operation op f) (r'.operation op f')
  expr : ∀ e f f', f.Alike ρ f' → (Code.expr e).Each ρ.Admits →
    Eval.Agree ρ (Values ρ) (r.expr e f) (r'.expr e f')
  call : ∀ callable callable' args args' mode f f', callable.Alike ρ callable' →
    Values ρ args args' → f.Alike ρ f' →
    Eval.Agree ρ (fun _ _ => True) (r.call callable args mode f) (r'.call callable' args' mode f')
  loop : ∀ (step step' : Eval Bool) [Climbs step], Eval.Agree ρ Eq step step' →
    Eval.Agree ρ (fun _ _ => True) (r.loop step) (r'.loop step')

/-- The same destination of an assignment. -/
inductive Destination.Alike (ρ : Matching) : Destination → Destination → Prop
  | place {p p' : Place} (h : p.Alike ρ p') : Destination.Alike ρ (.place p) (.place p')
  | element {c c' : CellId} {path path' : List Value} (h : ρ.Cell c c')
      (hpath : Values ρ path path') : Destination.Alike ρ (.element c path) (.element c' path')

/-- The same target, resolved. -/
structure Resolved.Alike (ρ : Matching) (t t' : Resolved) : Prop where
  destination : t.destination.Alike ρ t'.destination
  target : t.target = t'.target

/-- The same left side of an assignment, resolved. -/
structure ResolvedTargets.Alike (ρ : Matching) (t t' : ResolvedTargets) : Prop where
  fixed : List.Forall₂ (Resolved.Alike ρ) t.fixed t'.fixed
  rest : Option.Rel (Resolved.Alike ρ) t.rest t'.rest

namespace Eval

variable {ρ : Matching} {f f' : Frame}

/-! ## Names -/

/-- A variable is found in both frames or in neither. -/
theorem agree_readVariable (hf : f.Alike ρ f') (ns name : String) :
    Agree ρ (Value.Alike ρ) (readVariable f ns name) (readVariable f' ns name) := by
  refine agree_get fun w w' hw => ?_
  have found := hf.find? hw.store ns name
  generalize f.find? w.store ns name = place at found
  generalize f'.find? w'.store ns name = place' at found
  cases found with
  | none => exact agree_fault _
  | some hplace => exact agree_pure (hw.valueAt hplace)

/-- A command is found under the same name, or is one of the system. -/
theorem agree_findCommand (hf : f.Alike ρ f') (name : String) :
    Agree ρ (Callable.Alike ρ) (findCommand f name) (findCommand f' name) := by
  unfold findCommand
  rcases splitCommandName name with ⟨ns, base⟩
  refine agree_get fun w w' hw => ?_
  have found := hf.find? hw.store ns (base ++ "~")
  generalize f.find? w.store _ _ = place at found
  generalize f'.find? w'.store _ _ = place' at found
  cases found with
  -- no such function: then it is a command of the system, and its name is all there is to it
  | none => exact agree_pure (.external name)
  | some hplace =>
    dsimp only
    have held := hw.valueAt hplace
    generalize w.valueAt _ = v at held
    generalize w'.valueAt _ = v' at held
    cases held with
    | function hc => exact agree_pure hc
    | _ => exact agree_fault _

/-- A place is written to in both worlds, or refuses the value in both. -/
theorem agree_writePlace {p p' : Place} (hp : p.Alike ρ p') {v v' : Value} (hv : v.Alike ρ v') :
    Agree ρ Eq (writePlace p v) (writePlace p' v') := by
  cases hp with
  | cell hc => exact agree_assign hc hv
  | transient _ => exact agree_pure rfl
  -- the environment takes texts, which are the same for both values
  | environment name =>
    have same : (fun e : Environment => e.set name v) = fun e => e.set name v' := by
      funext e
      unfold Environment.set
      rw [hv.display_eq, hv.repr_eq]
    show Agree ρ Eq (tryEnvironment _) (tryEnvironment _)
    rw [same]
    exact agree_tryEnvironment _

/-- What cannot be written is reported with the same fault, from alike places. -/
theorem agree_write (hf : f.Alike ρ f') {t t' : Resolved} (ht : t.Alike ρ t') {v v' : Value}
    (hv : v.Alike ρ v') : Agree ρ (fun _ _ => True) (t.write v f) (t'.write v' f') := by
  have written : Agree ρ Eq (t.destination.write v) (t'.destination.write v') := by
    have same := ht.destination
    generalize t.destination = d at same
    generalize t'.destination = d' at same
    cases same with
    -- a whole variable
    | place hp =>
      refine agree_bind (agree_writePlace hp hv) fun outcome outcome' same => ?_
      subst same
      exact agree_pure rfl
    -- an element, for which the cell is assigned a whole value that has it at the path
    | element hc hpath =>
      refine agree_tryCell hc (fun _ _ hcell => hcell.assignElement hpath hv) fun _ _ h => .inr ?_
      obtain ⟨whole, -, assigned⟩ := Cell.assignElement_eq_ok h
      exact ⟨whole, assigned⟩
  refine agree_then written (fun outcome outcome' same => ?_) fun _ => by
    split <;> infer_instance
  subst same
  rw [← ht.target]
  split
  · exact agree_pure trivial
  · exact agree_located (hf.site _) (agree_fault _)

/-- Values are written from left to right, as long as there are targets and values. -/
theorem agree_writeEach (hf : f.Alike ρ f') {ts ts' : List Resolved}
    (hts : List.Forall₂ (Resolved.Alike ρ) ts ts') {vs vs' : List Value} (hvs : Values ρ vs vs') :
    Agree ρ (fun _ _ => True) (Resolved.writeEach f ts vs) (Resolved.writeEach f' ts' vs') := by
  induction hts generalizing vs vs' with
  | nil =>
    cases hvs with
    | nil => exact agree_pure trivial
    | cons => exact agree_pure trivial
  | cons ht _ ih =>
    cases hvs with
    | nil => exact agree_pure trivial
    | cons hv hvs => exact agree_bind (agree_write hf ht hv) fun _ _ _ => ih hvs

/-- A name that is not there is declared on both sides. -/
theorem agree_resolveOrDeclare (hf : f.Alike ρ f') (ns name : String) :
    Agree ρ (Place.Alike ρ) (resolveOrDeclare f ns name) (resolveOrDeclare f' ns name) := by
  refine agree_get fun w w' hw => ?_
  have found := hf.find? hw.store ns name
  generalize f.find? w.store ns name = place at found
  generalize f'.find? w'.store ns name = place' at found
  cases found with
  -- the name is in neither frame, and both declare it, or both refuse to
  | none =>
    dsimp only
    split
    · exact agree_declareHere hf.localScope name fun _ _ hc => .cell hc
    · exact agree_fault _
  | some hplace => exact agree_pure hplace

/-- A closure over scopes that are alike. -/
theorem agree_close (hf : f.Alike ρ f') {l : Lambda} (hl : (Code.lambda l).Each ρ.Admits)
    (isFunction : Bool) :
    Agree ρ (Callable.Alike ρ) (close f l isFunction) (close f' l isFunction) := by
  refine agree_bind (agree_overlay hf.upScope hf.localScope.visible) fun scope scope' hscope => ?_
  refine agree_bind agree_newIdentity fun id id' hid => ?_
  exact agree_pure (.closure ⟨hid, rfl, hl, hscope, hf.source, rfl⟩)

end Eval

namespace Runner

variable {ρ : Matching} {r r' : Runner} [r.Steady] {f f' : Frame}

/-! ## Expressions -/

section Expressions

variable (hr : r.Alike ρ r') (hf : f.Alike ρ f')
include hr hf

/-- Expressions are evaluated from left to right. -/
theorem agree_exprs {es : List Expr} (hes : ∀ e ∈ es, (Code.expr e).Each ρ.Admits) :
    Agree ρ (Values ρ) (r.exprs f es) (r'.exprs f' es) := by
  induction es with
  | nil => exact agree_pure .nil
  | cons e es ih =>
    refine agree_bind (hr.expr e f f' hf (hes e List.mem_cons_self)) fun found found' hfound => ?_
    refine agree_bind (ih fun e he => hes e (List.mem_cons_of_mem _ he)) fun rest rest' hrest => ?_
    exact agree_pure (List.rel_append hfound hrest)

omit [r.Steady] in
/-- Both have one value, or another number of them. -/
theorem agree_single (what : String) {e : Expr} (he : (Code.expr e).Each ρ.Admits) :
    Agree ρ (Value.Alike ρ) (r.single what e f) (r'.single what e f') := by
  refine agree_then (hr.expr e f f' hf he) (fun found found' hfound => ?_) fun _ => by
    split <;> infer_instance
  have length := hfound.length_eq
  cases hfound with
  -- no value at all
  | nil => exact agree_located (hf.site _) (agree_fault _)
  | cons hv rest =>
    cases rest with
    | nil => exact agree_pure hv
    -- several values, which are counted in the fault
    | cons hv' rest =>
      dsimp only
      rw [length]
      exact agree_located (hf.site _) (agree_fault _)

omit [r.Steady] in
/-- One function is called on both sides, or what there is instead is shown as the same text. -/
theorem agree_callable {e : Expr} (he : (Code.expr e).Each ρ.Admits) :
    Agree ρ (Callable.Alike ρ) (r.callable e f) (r'.callable e f') := by
  refine agree_then (hr.expr e f f' hf he) (fun found found' hfound => ?_) fun _ => by
    split <;> infer_instance
  have length := hfound.length_eq
  cases hfound with
  | nil => exact agree_fault _
  | cons hv rest =>
    cases rest with
    | nil =>
      have shown := hv.repr_eq
      cases hv with
      | function hc => exact agree_pure hc
      | _ =>
        dsimp only
        rw [shown]
        exact agree_fault _
    | cons hv' rest =>
      -- the first value is looked at before it is known that there are more
      cases hv with
      | _ =>
        dsimp only
        rw [length]
        exact agree_fault _

/-- Each value is indexed by each index. -/
theorem agree_indexAll {heads heads' : List Value} (hheads : Values ρ heads heads')
    {bracket : IndexBracket} (hb : ∀ e ∈ bracket.items, (Code.expr e).Each ρ.Admits) :
    Agree ρ (Values ρ) (r.indexAll f heads bracket) (r'.indexAll f' heads' bracket) := by
  refine agree_bind (agree_exprs hr hf hb) fun keys keys' hkeys => ?_
  refine agree_bind (agree_mapM hheads fun head head' hhead => agree_mapM hkeys fun key key' hkey =>
    agree_located (hf.site _) (agree_ofExcept (hhead.index hkey))) fun found found' hfound => ?_
  exact agree_pure (List.rel_flatten hfound)

/-- The parts of a word are joined to the same text. -/
theorem agree_compoundOnto {parts : List Expr} (hparts : ∀ e ∈ parts, (Code.expr e).Each ρ.Admits)
    (texts : List String) :
    Agree ρ Eq (r.compoundOnto f texts parts) (r'.compoundOnto f' texts parts) := by
  induction parts generalizing texts with
  | nil => exact agree_pure rfl
  | cons part parts ih =>
    refine agree_bind (hr.expr part f f' hf (hparts part List.mem_cons_self))
      fun values values' hvalues => ?_
    have words : values.mapM Value.toWord = values'.mapM Value.toWord :=
      hvalues.mapM_eq fun _ _ hv => hv.toWord_eq
    have texts' : appendEach texts values = appendEach texts values' := by
      unfold appendEach
      rw [words]
    rw [texts']
    refine agree_bind (agree_ofExcept (Except.Alike.refl _)) fun texts texts' same => ?_
    subst same
    exact ih (fun e he => hparts e (List.mem_cons_of_mem _ he)) texts

/-- The pairs of a map are added one by one; the keys are texts, and equal. -/
theorem agree_mapOnto {pairs : List (Expr × Expr)}
    (hpairs : ∀ p ∈ pairs, (Code.expr p.1).Each ρ.Admits ∧ (Code.expr p.2).Each ρ.Admits)
    {entries entries' : Table Value} (hentries : Table.Alike (Value.Alike ρ) entries entries') :
    Agree ρ (Table.Alike (Value.Alike ρ)) (r.mapOnto f entries pairs)
      (r'.mapOnto f' entries' pairs) := by
  induction pairs generalizing entries entries' with
  | nil => exact agree_pure hentries
  | cons pair pairs ih =>
    obtain ⟨hkey, hvalue⟩ := hpairs pair List.mem_cons_self
    obtain ⟨key, value⟩ := pair
    refine agree_bind (agree_single hr hf "map key" hkey) fun k k' hk => ?_
    refine agree_bind (agree_single hr hf "map value" hvalue) fun v v' hv => ?_
    rw [hk.toKey_eq]
    refine agree_bind (agree_ofExcept (Except.Alike.refl _)) fun name name' same => ?_
    subst same
    exact ih (fun p hp => hpairs p (List.mem_cons_of_mem _ hp)) (hentries.insert name hv)

/-- A capture reads from a queue and a buffer of its own, and both have been matched. -/
theorem agree_capture {op : Operation} (hop : (Code.operation op).Each ρ.Admits) :
    Agree ρ (Values ρ) (r.capture op f) (r'.capture op f') := by
  refine agree_bind agree_newQueue fun q q' hq => ?_
  refine agree_bind agree_newBuffer fun b b' hb => ?_
  have ports : Ports.Alike ρ ⟨f.ports.input, .queue q, .buffer b⟩
      ⟨f'.ports.input, .queue q', .buffer b'⟩ := ⟨hf.ports.input, .queue hq.rel, .buffer hb.rel⟩
  refine agree_bind (hr.operation op _ _ (hf.withPorts ports) hop) fun _ _ _ => ?_
  exact agree_get fun w w' hw => agree_pure (hw.streams.captured hq hb)

/-- **Expressions**, case by case. -/
theorem agree_evaluate {e : Expr} (he : (Code.expr e).Each ρ.Admits) :
    Agree ρ (Values ρ) (r.evaluate e f) (r'.evaluate e f') := by
  refine agree_located (hf.site _) ?_
  cases e with
  -- texts are alike to themselves
  | literal text span => exact agree_pure (.cons (.text text) .nil)
  | reference ref span =>
    refine agree_bind (agree_readVariable hf ref.ns ref.name) fun v v' hv => ?_
    split
    · exact agree_ofExcept hv.elements
    · exact agree_pure (.cons hv .nil)
  -- the brackets are the same on both sides, so the fold keeps the values alike
  | index head brackets span =>
    have hhead := he.child (d := .expr head) List.mem_cons_self
    refine agree_bind (hr.expr head f f' hf hhead) fun heads heads' hheads => ?_
    have same : List.Forall₂ (fun b b' => b = b' ∧ b ∈ brackets) brackets brackets :=
      List.forall₂_same.mpr fun b hb => ⟨rfl, hb⟩
    refine agree_foldlM same (fun heads heads' b b' hheads hb => ?_) hheads
    obtain ⟨rfl, hb⟩ := hb
    refine agree_indexAll hr hf hheads fun item hitem => he.child ?_
    exact List.mem_map_of_mem (List.mem_cons_of_mem _ (List.mem_flatMap_of_mem hb hitem))
  | list items span =>
    refine agree_bind (agree_exprs hr hf fun item hitem => he.child (List.mem_map_of_mem hitem))
      fun vs vs' hvs => ?_
    exact agree_pure (.cons (.ofItems hvs) .nil)
  | map pairs span =>
    refine agree_bind (agree_mapOnto hr hf (fun pair hpair => ⟨?_, ?_⟩) .nil) fun es es' hes => ?_
    · exact he.child (List.mem_flatMap_of_mem hpair List.mem_cons_self)
    · exact he.child (List.mem_flatMap_of_mem hpair (List.mem_cons_of_mem _ List.mem_cons_self))
    · exact agree_pure (.cons (.ofEntries hes) .nil)
  -- a closure is a new thing, and matched as such
  | lambda l =>
    have hl := he.child (d := .lambda l) List.mem_cons_self
    refine agree_bind (agree_close hf hl false) fun c c' hc => ?_
    exact agree_pure (.cons (.function hc) .nil)
  | capture op span => exact agree_capture hr hf (he.child List.mem_cons_self)
  -- a word made of parts is a list of texts
  | compound parts span =>
    refine agree_bind (agree_compoundOnto hr hf (fun part hpart => he.child (List.mem_map_of_mem hpart)) _)
      fun texts texts' same => ?_
    subst same
    refine agree_pure (List.forall₂_same.mpr fun v hv => ?_)
    obtain ⟨text, -, rfl⟩ := List.mem_map.mp hv
    exact .text text
  | sequence parts span =>
    exact agree_exprs hr hf fun part hpart => he.child (List.mem_map_of_mem hpart)

end Expressions

/-! ## Assignment -/

section Assignment

variable (hr : r.Alike ρ r') (hf : f.Alike ρ f')
include hr hf

/-- The indices of an element are evaluated level by level. -/
theorem agree_elementPath (tooMany : Fault) {e : ElementTarget}
    (he : ∀ i ∈ e.indices, (Code.expr i).Each ρ.Admits) :
    Agree ρ (Values ρ) (r.elementPath f tooMany e) (r'.elementPath f' tooMany e) := by
  suffices ∀ level brackets, (∀ b ∈ brackets, b ∈ e.brackets) →
      Agree ρ (Values ρ) (elementPath.go r f tooMany e level brackets)
        (elementPath.go r' f' tooMany e level brackets) from
    this 1 e.brackets fun _ hb => hb
  intro level brackets hbrackets
  induction brackets generalizing level with
  | nil => exact agree_pure .nil
  | cons bracket rest ih =>
    have hitems : ∀ i ∈ bracket.items, (Code.expr i).Each ρ.Admits := fun i hi =>
      he i (List.mem_flatMap_of_mem (hbrackets bracket List.mem_cons_self) hi)
    refine agree_then (agree_exprs hr hf hitems) (fun keys keys' hkeys => ?_) fun _ => by
      split <;> infer_instance
    cases hkeys with
    -- a bracket without an index, with one, and with several
    | nil => exact agree_located (hf.site _) (agree_fault _)
    | cons hkey more =>
      cases more with
      | nil =>
        refine agree_bind (ih _ fun b hb => hbrackets b (List.mem_cons_of_mem _ hb))
          fun path path' hpath => ?_
        exact agree_pure (.cons hkey hpath)
      | cons => exact agree_located (hf.site _) (agree_fault _)

/-- An element is in matched cells, at paths that are alike. -/
theorem agree_resolveElement {e : ElementTarget}
    (he : ∀ i ∈ e.indices, (Code.expr i).Each ρ.Admits) :
    Agree ρ (Destination.Alike ρ) (r.resolveElement f e) (r'.resolveElement f' e) := by
  refine agree_get fun w w' hw => ?_
  have found := hf.find? hw.store e.ns e.name
  generalize f.find? w.store e.ns e.name = place at found
  generalize f'.find? w'.store e.ns e.name = place' at found
  cases found with
  | none => exact agree_fault _
  | some hplace =>
    cases hplace with
    -- the environment has no elements
    | environment name => exact agree_located (hf.site _) (agree_fault _)
    -- the path is checked against the value that the cell holds now
    | cell hc =>
      refine agree_then (agree_elementPath hr hf _ he) (fun path path' hpath => ?_) fun _ =>
        climbs_then inferInstance fun _ => by
          dsimp only
          split <;> infer_instance
      refine agree_get fun w w' hw => ?_
      rw [(hw.valueAt (.cell hc)).checkPath hpath]
      split
      · exact agree_located (hf.site _) (agree_fault _)
      · exact agree_pure (.element hc hpath)
    -- what was made on the spot is checked in the same way, but nothing is kept of it
    | transient hv =>
      refine agree_then (agree_elementPath hr hf _ he) (fun path path' hpath => ?_) fun _ =>
        climbs_then inferInstance fun _ => by
          dsimp only
          split <;> infer_instance
      refine agree_get fun w w' hw => ?_
      rw [(hw.valueAt (.transient hv)).checkPath hpath]
      split
      · exact agree_located (hf.site _) (agree_fault _)
      · exact agree_pure (.place (.transient hv))

/-- A target is resolved to places that are matched. -/
theorem agree_resolveTarget {t : Target} (ht : ∀ i ∈ t.parts, (Code.expr i).Each ρ.Admits) :
    Agree ρ (Resolved.Alike ρ) (r.resolveTarget f t) (r'.resolveTarget f' t) := by
  refine agree_located (hf.site _) ?_
  cases t with
  | named ns name span =>
    refine agree_bind (agree_resolveOrDeclare hf ns name) fun place place' hplace => ?_
    exact agree_pure ⟨.place hplace, rfl⟩
  | element e =>
    refine agree_bind (agree_resolveElement hr hf ht) fun d d' hd => ?_
    exact agree_pure ⟨hd, rfl⟩

/-- Targets are resolved from left to right. -/
theorem agree_resolveEach {ts : List Target}
    (hts : ∀ i ∈ ts.flatMap Target.parts, (Code.expr i).Each ρ.Admits) :
    Agree ρ (List.Forall₂ (Resolved.Alike ρ)) (r.resolveEach f ts) (r'.resolveEach f' ts) := by
  induction ts with
  | nil => exact agree_pure .nil
  | cons t ts ih =>
    rw [List.flatMap_cons] at hts
    refine agree_bind (agree_resolveTarget hr hf fun i hi => hts i (List.mem_append_left _ hi))
      fun first first' hfirst => ?_
    refine agree_bind (ih fun i hi => hts i (List.mem_append_right _ hi)) fun rest rest' hrest => ?_
    exact agree_pure (.cons hfirst hrest)

/-- The fixed targets come before the one that takes the rest. -/
theorem agree_resolveTargets {t : Targets} (ht : ∀ i ∈ t.parts, (Code.expr i).Each ρ.Admits) :
    Agree ρ (ResolvedTargets.Alike ρ) (r.resolveTargets f t) (r'.resolveTargets f' t) := by
  obtain ⟨fixed, rest, span⟩ := t
  unfold Targets.parts at ht
  rw [List.flatMap_append] at ht
  refine agree_then (agree_resolveEach hr hf fun i hi => ht i (List.mem_append_left _ hi))
    (fun found found' hfound => ?_) fun _ => by
      cases rest <;> infer_instance
  cases rest with
  | none => exact agree_pure ⟨hfound, .none⟩
  | some rest =>
    refine agree_bind (agree_resolveTarget hr hf fun i hi => ht i (List.mem_append_right _ ?_))
      fun last last' hlast => agree_pure ⟨hfound, .some hlast⟩
    exact List.mem_flatMap_of_mem List.mem_cons_self hi

/-- Where one target is asked for, there is one on both sides or on neither. -/
theorem agree_onlyTarget (otherwise : Fault) {t : Targets}
    (ht : ∀ i ∈ t.parts, (Code.expr i).Each ρ.Admits) :
    Agree ρ (Resolved.Alike ρ) (r.onlyTarget f otherwise t) (r'.onlyTarget f' otherwise t) := by
  refine agree_then (agree_resolveTargets hr hf ht) (fun found found' hfound => ?_) fun _ => by
    split <;> infer_instance
  obtain ⟨fixed, rest⟩ := found
  obtain ⟨fixed', rest'⟩ := found'
  obtain ⟨hfixed, hrest⟩ := hfound
  cases hfixed with
  -- no target; one, unless it takes the rest; several
  | nil => exact agree_fault _
  | cons hfirst more =>
    cases more with
    | nil =>
      cases hrest with
      | none => exact agree_pure hfirst
      | some => exact agree_fault _
    | cons => exact agree_fault _

/-- **An assignment**: as many values as there are targets, or the same fault. -/
theorem agree_assignment {targets : Targets} {values : List Expr}
    (ht : ∀ i ∈ targets.parts, (Code.expr i).Each ρ.Admits)
    (hvalues : ∀ e ∈ values, (Code.expr e).Each ρ.Admits) :
    Agree ρ (fun _ _ => True) (r.assign targets values f) (r'.assign targets values f') := by
  -- targets come first, then values, and only then is anything written
  refine agree_then (agree_resolveTargets hr hf ht) (fun resolved resolved' hresolved => ?_) fun _ =>
    climbs_then inferInstance fun _ => by
      dsimp only
      split <;> infer_instance
  refine agree_then (agree_exprs hr hf hvalues) (fun vs vs' hvs => ?_) fun _ => by
    dsimp only
    split <;> infer_instance
  obtain ⟨fixed, rest⟩ := resolved
  obtain ⟨fixed', rest'⟩ := resolved'
  obtain ⟨hfixed, hrest⟩ := hresolved
  have count : fixed.length = fixed'.length := hfixed.length_eq
  have length := hvs.length_eq
  cases hrest with
  -- as many values as targets
  | none =>
    dsimp only
    rw [length, count]
    split
    · exact agree_writeEach hf hfixed hvs
    · exact agree_fault _
  -- the last target takes what is left over
  | some hlast =>
    dsimp only
    rw [length, count]
    split
    · refine agree_bind (agree_writeEach hf hfixed (List.forall₂_take _ hvs)) fun _ _ _ => ?_
      exact agree_write hf hlast (.ofItems (List.forall₂_drop _ hvs))
    · exact agree_fault _

end Assignment

/-! ## Special forms -/

omit [r.Steady] in
/-- A function is bound under the same name, and closed over matched scopes. -/
theorem agree_define (hf : f.Alike ρ f') (name : String) {body : Lambda}
    (hbody : (Code.lambda body).Each ρ.Admits) :
    Agree ρ (fun _ _ => True) (define name body f) (define name body f') := by
  refine agree_bind (agree_declareHere hf.localScope (name ++ "~") fun _ _ hc => hc)
    fun c c' hc => ?_
  refine agree_bind (agree_close hf hbody true) fun closure closure' hclosure => ?_
  refine agree_bind (agree_assign hc (.function hclosure)) fun outcome outcome' same => ?_
  subst same
  exact (agree_ofExcept (Except.Alike.refl _)).imp fun _ _ _ => trivial

section SpecialForms

variable (hr : r.Alike ρ r') (hf : f.Alike ρ f')
include hr hf

/-- The body of a form is closed, and called without arguments. -/
theorem agree_block {body : Lambda} (hbody : (Code.lambda body).Each ρ.Admits) (label : String) :
    Agree ρ (fun _ _ => True) (r.block body label f) (r'.block body label f') := by
  refine agree_bind (agree_close (hf.labelled label) hbody false) fun closure closure' hclosure => ?_
  exact hr.call _ _ _ _ _ _ _ hclosure .nil (hf.labelled label)

/-- There is such a body on both sides or on neither. -/
theorem agree_optionalBlock {body : Option Lambda}
    (hbody : ∀ l ∈ body, (Code.lambda l).Each ρ.Admits) (label : String) :
    Agree ρ (fun _ _ => True) (r.optionalBlock body label f) (r'.optionalBlock body label f') := by
  cases body with
  | none => exact agree_pure trivial
  | some body => exact agree_block hr hf (hbody body rfl) label

omit [r.Steady] in
/-- A condition holds on both sides or on neither. -/
theorem agree_holds {condition : Expr} (hc : (Code.expr condition).Each ρ.Admits) :
    Agree ρ Eq (r.holds condition f) (r'.holds condition f') := by
  refine agree_bind (hr.expr condition f f' hf hc) fun vs vs' hvs => agree_pure ?_
  induction hvs with
  | nil => rfl
  | cons hv _ ih => rw [List.all_cons, List.all_cons, hv.truthy_eq, ih]

/-- The same branch is taken. -/
theorem agree_conditional {otherwise : Option Lambda}
    (hotherwise : ∀ l ∈ otherwise, (Code.lambda l).Each ρ.Admits) {branches : List Branch}
    (hbranches : ∀ b ∈ branches, ∀ c ∈ Code.ofBranch b, c.Each ρ.Admits) :
    Agree ρ (fun _ _ => True) (r.conditional otherwise f branches)
      (r'.conditional otherwise f' branches) := by
  induction branches with
  -- no branch is left
  | nil => exact agree_optionalBlock hr hf hotherwise _
  | cons branch rest ih =>
    have parts := hbranches branch List.mem_cons_self
    refine agree_bind (agree_holds hr (hf.labelled _) (parts _ List.mem_cons_self))
      fun holds holds' same => ?_
    subst same
    split
    · exact agree_block hr hf (parts _ (List.mem_cons_of_mem _ List.mem_cons_self)) _
    · exact ih fun b hb => hbranches b (List.mem_cons_of_mem _ hb)

/-- A loop goes on as long as its condition holds, on both sides equally long. -/
theorem agree_whileLoop {condition : Expr} (hc : (Code.expr condition).Each ρ.Admits)
    {body : Lambda} (hbody : (Code.lambda body).Each ρ.Admits) :
    Agree ρ (fun _ _ => True) (r.whileLoop condition body f) (r'.whileLoop condition body f') := by
  refine agree_bind (agree_close (hf.labelled _) hbody false) fun closure closure' hclosure => ?_
  refine hr.loop _ _ ?_
  refine agree_bind (agree_holds hr (hf.labelled _) hc) fun holds holds' same => ?_
  subst same
  split
  · exact agree_loopBody (hr.call _ _ _ _ _ _ _ hclosure .nil (hf.labelled _))
  · exact agree_pure rfl

/-- A loop over items takes the same rounds, and its `else` part runs after none of them. -/
theorem agree_forLoop {target : Targets} (ht : ∀ i ∈ target.parts, (Code.expr i).Each ρ.Admits)
    {iterable : Expr} (hi : (Code.expr iterable).Each ρ.Admits) {body : Lambda}
    (hbody : (Code.lambda body).Each ρ.Admits) {otherwise : Option Lambda}
    (hotherwise : ∀ l ∈ otherwise, (Code.lambda l).Each ρ.Admits) :
    Agree ρ (fun _ _ => True) (r.forLoop target iterable body otherwise f)
      (r'.forLoop target iterable body otherwise f') := by
  refine agree_bind (agree_onlyTarget hr hf _ ht) fun item item' hitem => ?_
  refine agree_bind (agree_single hr hf _ hi) fun v v' hv => ?_
  refine agree_bind (agree_close (hf.labelled _) hbody false) fun closure closure' hclosure => ?_
  refine agree_bind (agree_located (hf.site _) (agree_ofExcept hv.elements))
    fun elements elements' helements => ?_
  have empty : elements.isEmpty = elements'.isEmpty := by
    cases helements <;> rfl
  rw [empty]
  -- no round is taken without items, but the other part runs
  split
  · exact agree_optionalBlock hr hf hotherwise _
  · refine agree_forEach helements fun element element' helement => ?_
    refine agree_bind (agree_write (hf.labelled _) hitem helement) fun _ _ _ => ?_
    exact agree_loopBody (hr.call _ _ _ _ _ _ _ hclosure .nil (hf.labelled _))

/-- The handler is given an exception that is alike. -/
theorem agree_handle {handler : Handler}
    (hhandler : ∀ c ∈ Code.ofHandler handler, c.Each ρ.Admits) {e e' : Exception}
    (he : e.Alike ρ e') :
    Agree ρ (fun _ _ => True) (r.handle handler e f) (r'.handle handler e' f') := by
  obtain ⟨target, body⟩ := handler
  have hbody : (Code.lambda body).Each ρ.Admits :=
    hhandler _ (List.mem_append_right _ List.mem_cons_self)
  cases target with
  -- a handler without a variable
  | none => exact agree_block hr hf hbody _
  | some target =>
    have ht : ∀ i ∈ target.parts, (Code.expr i).Each ρ.Admits := fun i hi =>
      hhandler _ (List.mem_append_left _ (List.mem_map_of_mem (List.mem_flatMap_of_mem
        List.mem_cons_self hi)))
    refine agree_bind (agree_onlyTarget hr (hf.labelled _) _ ht) fun place place' hplace => ?_
    refine agree_bind agree_newIdentity fun id id' hid => ?_
    refine agree_bind (agree_write (hf.labelled _) hplace (.exception hid he)) fun _ _ _ => ?_
    exact agree_block hr hf hbody _

/-- A guarded body ends alike, and so it is handled on both sides or on neither. -/
theorem agree_guarded {body : Lambda} (hbody : (Code.lambda body).Each ρ.Admits)
    {handler : Option Handler}
    (hhandler : ∀ h ∈ handler, ∀ c ∈ Code.ofHandler h, c.Each ρ.Admits) {otherwise : Option Lambda}
    (hotherwise : ∀ l ∈ otherwise, (Code.lambda l).Each ρ.Admits) :
    Agree ρ (fun _ _ => True) (r.guarded body handler otherwise f)
      (r'.guarded body handler otherwise f') := by
  refine agree_then (agree_settle (agree_block hr hf hbody _)) (fun outcome outcome' ends => ?_) fun _ => by
    split
    · infer_instance
    · split <;> infer_instance
    · infer_instance
  cases ends with
  -- the body ended well
  | ok => exact agree_optionalBlock hr hf hotherwise _
  | error hu =>
    cases hu with
    -- a signal passes by the handler
    | signal s => exact agree_throw (.unwind (.signal s))
    | exception he =>
      cases handler with
      -- and so does an exception where there is none
      | none => exact agree_throw (.unwind (.exception he))
      | some handler => exact agree_handle hr hf (hhandler handler rfl) he

/-- What `finally` makes of alike outcomes is alike. -/
theorem agree_tryBlock {body : Lambda} (hbody : (Code.lambda body).Each ρ.Admits)
    {handler : Option Handler}
    (hhandler : ∀ h ∈ handler, ∀ c ∈ Code.ofHandler h, c.Each ρ.Admits)
    {otherwise finalizer : Option Lambda}
    (hotherwise : ∀ l ∈ otherwise, (Code.lambda l).Each ρ.Admits)
    (hfinalizer : ∀ l ∈ finalizer, (Code.lambda l).Each ρ.Admits) :
    Agree ρ (fun _ _ => True) (r.tryBlock body handler otherwise finalizer f)
      (r'.tryBlock body handler otherwise finalizer f') := by
  have main := agree_guarded hr hf hbody hhandler hotherwise
  cases finalizer with
  | none => exact main
  | some finalizer =>
    -- how the guarded part ended is kept until the finalizer has run
    refine agree_then (agree_settle main) (fun outcome outcome' ends => ?_) fun _ =>
      climbs_then inferInstance fun _ => by
        split <;> infer_instance
    refine agree_then (agree_block hr hf (hfinalizer finalizer rfl) _) (fun _ _ _ => ?_) fun _ => by
      split <;> infer_instance
    cases ends with
    | ok => exact agree_pure trivial
    | error hu =>
      cases hu with
      -- a signal goes on; an exception has been superseded
      | signal s => exact agree_throw (.unwind (.signal s))
      | exception => exact agree_pure trivial

/-- A connective stops at the same expression. -/
theorem agree_connective (stopAt : Bool) {es : List Expr}
    (hes : ∀ e ∈ es, (Code.expr e).Each ρ.Admits) {last last' : Value} (hlast : last.Alike ρ last') :
    Agree ρ (fun _ _ => True) (r.connective stopAt f last es)
      (r'.connective stopAt f' last' es) := by
  induction es generalizing last last' with
  | nil => exact agree_put hf.ports hlast
  | cons e es ih =>
    refine agree_then (hr.expr e f f' hf (hes e List.mem_cons_self)) (fun vs vs' hvs => ?_) fun _ => by
      split <;> infer_instance
    -- the value that decides, if there is one
    have first : Option.Rel (Value.Alike ρ) (vs.find? fun v => v.truthy == stopAt)
        (vs'.find? fun v => v.truthy == stopAt) := by
      clear ih
      induction hvs with
      | nil => exact .none
      | cons hv _ ih =>
        rw [List.find?_cons, List.find?_cons, hv.truthy_eq]
        split
        · exact .some hv
        · exact ih
    -- and else the last one so far
    have ending : Option.Rel (Value.Alike ρ) vs.getLast? vs'.getLast? := by
      clear ih first
      induction hvs with
      | nil => exact .none
      | cons hv more ih =>
        cases more with
        | nil => exact .some hv
        | cons => exact ih
    generalize vs.find? _ = found at first
    generalize vs'.find? _ = found' at first
    cases first with
    | some hv => exact agree_put hf.ports hv
    | none =>
      refine ih (fun e he => hes e (List.mem_cons_of_mem _ he)) ?_
      generalize vs.getLast? = v at ending
      generalize vs'.getLast? = v' at ending
      cases ending with
      | none => exact hlast
      | some hv => exact hv

/-- The same key is removed, or the same fault is raised. -/
theorem agree_deleteElement {e : ElementTarget}
    (he : ∀ i ∈ e.indices, (Code.expr i).Each ρ.Admits) :
    Agree ρ (fun _ _ => True) (r.deleteElement e f) (r'.deleteElement e f') := by
  refine agree_get fun w w' hw => ?_
  have found := hf.find? hw.store e.ns e.name
  generalize f.find? w.store e.ns e.name = place at found
  generalize f'.find? w'.store e.ns e.name = place' at found
  cases found with
  | none => exact agree_fault _
  | some hplace =>
    cases hplace with
    -- the environment has no elements
    | environment name => exact agree_located (hf.site _) (agree_fault _)
    -- a cell is left with the rest of its value
    | @cell c c' hc =>
      refine agree_then (agree_elementPath hr hf _ he) (fun path path' hpath => ?_) fun _ =>
        climbs_then inferInstance fun _ => by
          dsimp only
          split <;> infer_instance
      have removed : Agree ρ Eq (tryCell c fun cell => cell.removeElement path)
          (tryCell c' fun cell => cell.removeElement path') := by
        refine agree_tryCell hc (fun _ _ hcell => hcell.removeElement hpath) fun cell cell' h => ?_
        obtain ⟨-, rfl⟩ | ⟨whole, -, assigned⟩ := Cell.removeElement_eq_ok h
        · exact .inl rfl
        · exact .inr ⟨whole, assigned⟩
      refine agree_then removed (fun outcome outcome' same => ?_) fun _ => by
        dsimp only
        split <;> infer_instance
      subst same
      cases outcome with
      | ok => exact agree_pure trivial
      | error error =>
        dsimp only
        rw [hpath.length_eq]
        exact agree_located (hf.site _) (agree_fault _)
    -- of what was made on the spot nothing is kept, but the path may be wrong
    | @transient v v' hv =>
      refine agree_then (agree_elementPath hr hf _ he) (fun path path' hpath => ?_) fun _ => by
        dsimp only
        split <;> infer_instance
      have removed := hv.removePath hpath
      generalize v.removePath path = outcome at removed
      generalize v'.removePath path' = outcome' at removed
      cases removed with
      | ok => exact agree_pure trivial
      | error error =>
        dsimp only [Except.map]
        rw [hpath.length_eq]
        exact agree_located (hf.site _) (agree_fault _)

/-- Deletions from left to right. -/
theorem agree_delete {targets : List Deletion}
    (ht : ∀ i ∈ targets.flatMap Deletion.parts, (Code.expr i).Each ρ.Admits) :
    Agree ρ (fun _ _ => True) (r.delete f targets) (r'.delete f' targets) := by
  induction targets with
  | nil => exact agree_pure trivial
  | cons target rest ih =>
    rw [List.flatMap_cons] at ht
    have later := ih fun i hi => ht i (List.mem_append_right _ hi)
    cases target with
    -- the name goes, whatever it has led to
    | localName name =>
      exact agree_bind (agree_updateStore (R := fun _ _ => True) fun _ _ hs _ =>
        ⟨trivial, hs.unbind hf.localScope name⟩) fun _ _ _ => later
    | environment name =>
      refine agree_bind (agree_tryEnvironment _) fun outcome outcome' same => ?_
      subst same
      exact agree_bind (agree_ofExcept (Except.Alike.refl _)) fun _ _ _ => later
    | element e =>
      exact agree_bind (agree_deleteElement hr hf fun i hi => ht i (List.mem_append_left _ hi))
        fun _ _ _ => later

end SpecialForms

/-! ## Imports -/

/-- The code of a module starts to run: it may be taken to be admitted. -/
theorem agree_running {α β : Type} {R : α → β → Prop} (path : String) (code : Operation)
    {x : Eval α} {y : Eval β} [hx : Climbs x]
    (h : (Code.operation code).Each ρ.Admits → Agree ρ R x y) :
    Agree ρ R (note (.running path code) >>= fun _ => x)
      (note (.running path code) >>= fun _ => y) := by
  intro w w' hw within
  have admitted : (Code.operation code).Each ρ.Admits := by
    refine ((hx.onward (w.note (.running path code))).within within).modules path code ?_
    exact List.mem_cons_self
  exact h admitted (w.note _) (w'.note _) { hw with } within

/-- The same source compiles to the same code where the builtins have the same names. -/
theorem agree_compileModule (builtins : List String) (source : Source) :
    Agree ρ Eq (compileModule builtins source) (compileModule builtins source) := by
  unfold compileModule
  -- nothing here depends on the world
  split
  · exact agree_throw .outOfFuel
  · exact agree_fault _
  · split
    · exact agree_fault _
    · exact agree_pure rfl

section Imports

variable (hr : r.Alike ρ r')

section Modules

variable (hf : f.AlikeForModules ρ f')
include hr hf

/-- The code of a module runs in a frame that depends on nothing but the module. -/
theorem agree_runModule (source : Source) (path : String) {ns ns' : ScopeId}
    (hns : ρ.Scope ns ns') (op : Operation) :
    Agree ρ (fun _ _ => True) (r.runModule f source path ns op)
      (r'.runModule f' source path ns' op) := by
  refine agree_bind agree_newScope fun nothing nothing' hnothing => ?_
  refine agree_running path op fun admitted => ?_
  have inside : (f.ofModule source path ns nothing).Alike ρ (f'.ofModule source path ns' nothing') :=
    { library := hf.library, builtins := hf.builtins, source := ρ.source_refl source
      localScope := hns, upScope := hnothing.visible, ports := hf.ports, label := rfl
      loading := congrArg (· ++ [path]) hf.loading }
  exact agree_enclosed (inside.site _) (hr.operation op _ _ inside admitted)

/-- A load reads the same file, and compiles it to the same code. -/
theorem agree_load (path : String) {ns ns' : ScopeId} (hns : ρ.Scope ns ns') :
    Agree ρ (fun _ _ => True) (r.load f path ns) (r'.load f' path ns') := by
  refine agree_get fun w w' hw => ?_
  rw [hf.library, hw.files, hw.store.names hf.builtins]
  refine agree_bind (agree_ofExcept (Except.Alike.refl _)) fun source source' same => ?_
  subst same
  refine agree_bind (agree_compileModule _ source) fun op op' same => ?_
  subst same
  exact agree_runModule hr hf source path hns op

/-- A load makes a namespace, on both sides the next one. -/
theorem agree_loadNew (path : String) :
    Agree ρ ρ.Scope (r.loadNew f path) (r'.loadNew f' path) := by
  -- the namespace is made first, and both caches name it while the load goes on
  refine agree_then agree_newScope (fun ns ns' hns => ?_) fun ns =>
    climbs_then inferInstance fun _ => climbs_then inferInstance (climbs_outcome inferInstance inferInstance)
  refine agree_then (agree_updateModules fun _ _ hcache => hcache.insert path (.loading hns []))
    (fun _ _ _ => ?_) fun _ => climbs_then inferInstance (climbs_outcome inferInstance inferInstance)
  refine agree_then (agree_settle (agree_load hr hf path hns)) (fun outcome outcome' ends => ?_)
    (climbs_outcome inferInstance inferInstance)
  cases ends with
  -- a load that succeeds stays in the cache
  | ok =>
    refine agree_bind (agree_updateModules fun _ _ hcache => hcache.insert path (.loaded hns))
      fun _ _ _ => ?_
    exact agree_bind (agree_note _ _) fun _ _ _ => agree_pure hns
  -- one that fails is forgotten
  | error hu =>
    refine agree_bind (agree_updateModules fun _ _ hcache => hcache.erase path) fun _ _ _ => ?_
    exact agree_bind (agree_note _ _) fun _ _ _ => agree_throw (.unwind hu)

/-- The caches answer alike: the module is there, it has to be loaded, or the import would wait. -/
theorem agree_fetchModule (path : String) :
    Agree ρ ρ.Scope (r.fetchModule f path) (r'.fetchModule f' path) := by
  refine agree_get fun w w' hw => ?_
  have found := ModuleCache.request_alike hw.modules path f.loading
  rw [← hf.loading]
  generalize w.modules.request path f.loading = answer at found
  generalize w'.modules.request path f.loading = answer' at found
  cases found with
  -- it is there, or inside of its own load, where half of it is there
  | finished hns => exact agree_pure hns
  | unfinished hns => exact agree_pure hns
  | busy => exact agree_throw .blocked
  | absent => exact agree_loadNew hr hf path

end Modules

variable (hf : f.Alike ρ f')
include hf

omit [r.Steady] in
/-- What a target of `use` means depends on the name and the kind of the source. -/
theorem resolvePath_eq (target : String) : resolvePath f.source target = resolvePath f'.source target := by
  obtain ⟨name, kind⟩ := ρ.source_same hf.source
  unfold resolvePath ModulePath.resolve Source.isModule
  rw [name, kind]

include hr

/-- The path is resolved against the same source. -/
theorem agree_importModule (target : String) :
    Agree ρ ρ.Scope (r.importModule f target) (r'.importModule f' target) := by
  unfold importModule
  rw [resolvePath_eq hf]
  refine agree_bind (agree_ofExcept (Except.Alike.refl _)) fun path path' same => ?_
  subst same
  refine agree_bind (agree_fetchModule hr hf.forModules path) fun ns ns' hns => ?_
  exact agree_bind (agree_note _ _) fun _ _ _ => agree_pure hns

/-- `use` binds matched namespaces under the same name. -/
theorem agree_useModule (name path : String) :
    Agree ρ (fun _ _ => True) (r.useModule name path f) (r'.useModule name path f') := by
  refine agree_bind (agree_importModule hr hf path) fun ns ns' hns => ?_
  refine agree_bindNew hf.localScope _ (.forName _ (.ns hns)) fun _ s => ?_
  refine s.honours_forName fun k hk => ?_
  rw [Constraint.forName?_namespace] at hk
  cases hk
  rfl

end Imports

/-! ## Calls -/

/-- The fresh variable keeps the promise of the parameter's name. -/
theorem agree_bindOne {scope scope' : ScopeId} (hscope : ρ.Scope scope scope') (name : String)
    {v v' : Value} (hv : v.Alike ρ v') :
    Agree ρ (fun _ _ => True)
      (do
        let c ← updateStore fun s => s.declare name
        ofExcept (← tryCell c fun cell => cell.assign v)
        updateStore fun s => ((), s.bind scope name c))
      (do
        let c ← updateStore fun s => s.declare name
        ofExcept (← tryCell c fun cell => cell.assign v')
        updateStore fun s => ((), s.bind scope' name c)) := by
  intro w w' hw within
  have declares : (w.store.declare name).2.scopes.size ≤ ρ.bound := by
    have later : Climbs (do
        ofExcept (← tryCell (w.store.declare name).1 fun cell => cell.assign v)
        updateStore fun s => ((), s.bind scope name (w.store.declare name).1)) := inferInstance
    rw [bind_run_ok (updateStore_run _ w)] at within
    exact ((later.onward _).within within).scopes
  -- the cells that the two declarations make are matched
  obtain ⟨cells, declared⟩ := hw.store.declare name declares
  rw [bindOne_run, bindOne_run]
  have written := declared.write cells hv
  cases hs : (w.store.declare name).2.write (w.store.declare name).1 v <;>
    cases hs' : (w'.store.declare name).2.write (w'.store.declare name).1 v' <;>
    rw [hs, hs'] at written
  -- both refuse the value, with the same fault
  · cases written
    exact ⟨.error (.unwind (.exception ⟨rfl, .none⟩)), { hw with store := declared }⟩
  -- only one of the two refuses: this cannot be
  · exact nomatch written
  · exact nomatch written
  · cases written with
    | ok alike =>
      have honoured := (w.store.honours_declare name).write hs
      exact ⟨.ok trivial, { hw with store := alike.bind hscope cells fun _ => honoured }⟩

/-- Names are bound to values one by one. -/
theorem agree_bindEach {scope scope' : ScopeId} (hscope : ρ.Scope scope scope')
    (names : List String) {vs vs' : List Value} (hvs : Values ρ vs vs') :
    Agree ρ (fun _ _ => True) (bindEach scope names vs) (bindEach scope' names vs') := by
  induction names generalizing vs vs' with
  | nil => exact agree_pure trivial
  | cons name names ih =>
    cases hvs with
    | nil => exact agree_pure trivial
    | cons hv hvs =>
      rw [bindEach_cons, bindEach_cons]
      exact agree_bind (agree_bindOne hscope name hv) fun _ _ _ => ih hvs

/-- There are as many arguments as there are parameters, or the same fault. -/
theorem agree_bindParameters {scope scope' : ScopeId} (hscope : ρ.Scope scope scope') {l : Lambda}
    (hl : ρ.Admits l) {args args' : List Value} (hargs : Values ρ args args') :
    Agree ρ (fun _ _ => True) (bindParameters scope l args) (bindParameters scope' l args') := by
  unfold bindParameters
  dsimp only
  rw [hargs.length_eq]
  split
  -- without a rest parameter, and with one
  · split
    · exact agree_bindEach hscope _ hargs
    · exact agree_fault _
  · next rest hrest =>
    split
    · refine agree_bind (agree_bindEach hscope _ hargs) fun _ _ _ => ?_
      refine agree_bindNew hscope rest (.plain (.ofItems (List.forall₂_drop _ hargs))) ?_
      -- the rest parameter has no constraint, so its name must not promise anything
      intro strict s
      exact Store.honours_plain (hl strict rest hrest) _
    · exact agree_fault _

/-- A rest parameter takes what is left over, as a list. -/
theorem agree_bindArguments {scope scope' : ScopeId} (hscope : ρ.Scope scope scope') {l : Lambda}
    (hl : ρ.Admits l) {args args' : List Value} (hargs : Values ρ args args') :
    Agree ρ (fun _ _ => True) (bindArguments scope l args) (bindArguments scope' l args') := by
  have named := agree_bindNew hscope "args" (.plain (.ofItems hargs)) fun _ s =>
    Store.honours_plain rfl _
  unfold bindArguments
  split
  · exact agree_bind (agree_bindParameters hscope hl hargs) fun _ _ _ => named
  · exact named

/-- What a program does depends on its path, its words, its input, the files and the environment, which are equal. -/
theorem agree_startProgram (path : String) (words : List String) :
    Agree ρ Eq (startProgram path words) (startProgram path words) := by
  intro w w' hw _
  rw [startProgram_run, startProgram_run, hw.streams.programs, hw.environment, hw.files, hw.streams.input]
  refine ⟨.ok rfl, ?_⟩
  dsimp only
  cases Command.start w'.streams.programs w'.environment w'.files path words w'.streams.input with
  | error e =>
    refine { hw with streams := ?_ }
    show Streams.Alike ρ (w.streams.pass [] w.streams.input) (w'.streams.pass [] w'.streams.input)
    rw [hw.streams.input]
    exact hw.streams.pass [] w'.streams.input
  | ok result =>
    exact { hw with streams := hw.streams.pass result.errors result.input, files := rfl }

/-- A program that is found is given the same words, and its output goes to alike ports. -/
theorem agree_runExternal (hf : f.Alike ρ f') (name : String) {args args' : List Value}
    (hargs : Values ρ args args') :
    Agree ρ (fun _ _ => True) (runExternal name args f) (runExternal name args' f') := by
  have words : args.mapM Value.toWord = args'.mapM Value.toWord :=
    hargs.mapM_eq fun _ _ hv => hv.toWord_eq
  refine agree_get fun w w' hw => ?_
  rw [hw.environment, hw.files, words]
  split
  -- the same program is found in both worlds, or none
  · exact agree_fault _
  · refine agree_then (agree_ofExcept (Except.Alike.refl _)) (fun given given' same => ?_) fun _ =>
      climbs_then inferInstance fun _ => by
        split <;> infer_instance
    subst same
    refine agree_then (agree_startProgram _ given) (fun ended ended' same => ?_) fun ended => by
      split <;> infer_instance
    subst same
    split
    · exact agree_fault _
    · refine agree_bind (agree_writeBytes hf.ports _) fun _ _ _ => ?_
      split
      · exact agree_pure trivial
      · exact agree_fault _

section Calls

variable (hr : r.Alike ρ r') (hf : f.Alike ρ f')
include hr hf

omit [r.Steady] in
/-- A body runs to its end, and a return from a function ends it well. -/
theorem agree_runBody {c c' : Closure} (hc : c.Alike ρ c') (mode : CallMode) :
    Agree ρ (fun _ _ => True) (r.runBody c mode f) (r'.runBody c' mode f') := by
  have body := hr.operation c.lambda.body f f' hf hc.admitted.body
  unfold runBody
  rw [← hc.isFunction, ← hc.lambda]
  -- only in a function does a return end here
  split
  · exact agree_returning body
  · exact body

/-- **A call of a closure**: a fresh scope on both sides, the captured ones being matched. -/
theorem agree_callClosure {c c' : Closure} (hc : c.Alike ρ c') {args args' : List Value}
    (hargs : Values ρ args args') (mode : CallMode) :
    Agree ρ (fun _ _ => True) (r.callClosure c args mode f) (r'.callClosure c' args' mode f') := by
  refine agree_bind agree_newScope fun scope scope' hscope => ?_
  rw [← hc.lambda]
  refine agree_bind (agree_bindArguments hscope hc.admitted.self hargs) fun _ _ _ => ?_
  exact agree_runBody hr (hf.inside hc mode hscope) hc mode

end Calls

/-! ## Builtins -/

section Arguments

omit [r.Steady]

variable {args args' : List Value}

/-- One argument on both sides, or the same fault. -/
theorem only_alike (h : Values ρ args args') :
    Except.Alike (Value.Alike ρ) (Builtin.only args) (Builtin.only args') := by
  cases h with
  | nil => exact .error _
  | cons hv more =>
    cases more with
    | nil => exact .ok hv
    | cons => exact .error _

theorem onlyWord_eq (h : Values ρ args args') : Builtin.onlyWord args = Builtin.onlyWord args' := by
  cases h with
  | nil => rfl
  | cons hv more =>
    cases more with
    | nil => exact hv.toWord_eq
    | cons => rfl

/-- Arguments are joined to the same text. -/
theorem joined_eq (h : Values ρ args args') : Builtin.joined args = Builtin.joined args' := by
  have shown : args.map Value.display = args'.map Value.display := by
    induction h with
    | nil => rfl
    | cons hv _ ih => exact congrArg₂ List.cons hv.display_eq ih
  unfold Builtin.joined
  rw [shown]

/-- Arguments are equal to each other on both sides or on neither. -/
theorem allEqual_eq (h : Values ρ args args') : Builtin.allEqual args = Builtin.allEqual args' := by
  induction h with
  | nil => rfl
  | cons hv more ih =>
    cases more with
    | nil => rfl
    | cons hv' more => exact congrArg₂ and (hv.same_eq hv') ih

/-- Both are the same exit code. -/
theorem exitCode_eq (h : Values ρ args args') : Builtin.exitCode args = Builtin.exitCode args' := by
  cases h with
  | nil => rfl
  | cons hv more =>
    cases more with
    | nil =>
      unfold Builtin.exitCode
      dsimp only
      rw [hv.toNumber_eq, hv.repr_eq]
    | cons => rfl

theorem toNumbers_eq (h : Values ρ args args') :
    args.mapM Value.toNumber = args'.mapM Value.toNumber :=
  h.mapM_eq fun _ _ hv => hv.toNumber_eq

end Arguments

section Input

omit [r.Steady]

variable (hf : f.Alike ρ f')
include hf

/-- As many values are counted. -/
theorem agree_countInput : Agree ρ Eq (Builtin.countInput f.ports) (Builtin.countInput f'.ports) := by
  have input := hf.ports.input
  unfold Builtin.countInput
  generalize hi : f.ports.input = q at input
  generalize hi' : f'.ports.input = q' at input
  cases input with
  | none => exact agree_pure rfl
  | some hq =>
    refine agree_get fun w w' hw => ?_
    rw [(hw.streams.waiting hq).length_eq]
    refine agree_bind (agree_eachInput hf.ports fun _ _ _ => agree_pure rfl) fun _ _ _ => ?_
    exact agree_pure rfl

/-- The values of the input make the same text. -/
theorem agree_inputText : Agree ρ Eq (Builtin.inputText f.ports) (Builtin.inputText f'.ports) := by
  have input := hf.ports.input
  unfold Builtin.inputText
  generalize f.ports.input = q at input
  generalize f'.ports.input = q' at input
  cases input with
  | none => exact agree_pure rfl
  | some hq =>
    refine agree_get fun w w' hw => ?_
    rw [(hw.streams.waiting hq).length_eq]
    generalize (w'.streams.waiting _).length = left
    generalize "" = text
    -- on the number of values that wait
    induction left generalizing text with
    | zero => exact agree_pure rfl
    | succ left ih =>
      refine agree_then (agree_takeFrom hq) (fun next next' hnext => ?_) fun _ => by
        split <;> infer_instance
      cases hnext with
      | none => exact agree_pure rfl
      | some hv =>
        dsimp only
        rw [hv.toWord_eq]
        refine agree_bind (agree_ofExcept (Except.Alike.refl _)) fun line line' same => ?_
        subst same
        exact ih _

end Input

section Builtins

variable (hr : r.Alike ρ r') (hf : f.Alike ρ f')
include hf

omit [r.Steady] in
/-- The values of a document are closed, and so they are alike on both sides. -/
theorem agree_putJson (text : String) :
    Agree ρ (fun _ _ => True) (Builtin.putJson f.ports text) (Builtin.putJson f'.ports text) := by
  unfold Builtin.putJson
  have closed : ∀ v ∈ (readJson text.toList).1, v.Alike ρ v := fun v hv =>
    (readJson_closed text.toList v hv).alike
  revert closed
  rcases readJson text.toList with ⟨documents, stop⟩
  intro closed
  have same : Values ρ documents documents := List.forall₂_same.mpr closed
  refine agree_then (agree_forM same fun _ _ hv => agree_put hf.ports hv) (fun _ _ _ => ?_) fun _ => by
    split <;> infer_instance
  split
  · exact agree_pure trivial
  · exact agree_throw .outOfFuel
  · exact agree_fault _

include hr

/-- `each` calls its function as many times. -/
theorem agree_each {args args' : List Value} (hargs : Values ρ args args') :
    Agree ρ (fun _ _ => True) (r.each args f) (r'.each args' f') := by
  cases hargs with
  | nil => exact agree_fault _
  | cons hv more =>
    have kind := hv.kind_eq
    cases hv with
    | function hc =>
      have step {v v' : Value} (hv : v.Alike ρ v') :=
        agree_loopBody (hr.call _ _ _ _ .command f f' hc (.cons hv .nil) hf)
      cases more with
      -- without a list it takes the values of the input
      | nil => exact agree_eachInput hf.ports fun _ _ hv => step hv
      | cons hinputs more =>
        cases more with
        | nil =>
          exact agree_bind (agree_ofExcept hinputs.elements) fun _ _ helements =>
            agree_forEach helements fun _ _ hv => step hv
        | cons => exact agree_fault _
    | _ =>
      unfold each
      dsimp only
      rw [kind]
      exact agree_fault _

/-- **Builtins**, case by case. -/
theorem agree_builtin (b : Builtin) {args args' : List Value} (hargs : Values ρ args args') :
    Agree ρ (fun _ _ => True) (r.builtin b args f) (r'.builtin b args' f') := by
  have empty : args.isEmpty = args'.isEmpty := by
    cases hargs <;> rfl
  have out {v v' : Value} (hv : v.Alike ρ v') := agree_put hf.ports hv
  have only : Agree ρ (Value.Alike ρ) (ofExcept (Builtin.only args)) (ofExcept (Builtin.only args')) :=
    agree_ofExcept (only_alike hargs)
  have numbers : Agree ρ Eq (ofExcept (args.mapM Value.toNumber))
      (ofExcept (args'.mapM Value.toNumber)) := by
    rw [toNumbers_eq hargs]
    exact agree_ofExcept (Except.Alike.refl _)
  have word : Agree ρ Eq (ofExcept (Builtin.onlyWord args)) (ofExcept (Builtin.onlyWord args')) := by
    rw [onlyWord_eq hargs]
    exact agree_ofExcept (Except.Alike.refl _)
  -- the three builtins that are signals
  have signal (s : Signal) : Agree ρ (fun _ _ => True)
      (if args.isEmpty then throw (.unwind (.signal s)) else fault .arityMismatch : Eval Unit)
      (if args'.isEmpty then throw (.unwind (.signal s)) else fault .arityMismatch : Eval Unit) := by
    rw [empty]
    split
    · exact agree_throw (.unwind (.signal s))
    · exact agree_fault _
  unfold builtin
  cases b with
  -- what goes to the outputs
  | put => exact agree_forM hargs fun _ _ hv => out hv
  | echo =>
    dsimp only
    rw [joined_eq hargs]
    exact agree_writeBytes hf.ports _
  | print =>
    dsimp only
    rw [joined_eq hargs]
    exact agree_writeBytes hf.ports _
  | kindOf => exact agree_forM hargs fun _ _ hv => out (hv.kind_eq ▸ .text _)
  | nop => exact agree_pure trivial
  | fail =>
    refine agree_bind only fun v v' hv => ?_
    rw [hv.display_eq]
    exact agree_fault _
  -- what ends something
  | «return» => exact signal _
  | «break» => exact signal _
  | «continue» => exact signal _
  | exit =>
    dsimp only
    rw [exitCode_eq hargs]
    refine agree_bind (agree_ofExcept (Except.Alike.refl _)) fun code code' same => ?_
    subst same
    exact agree_throw (.exit code)
  -- what asks for the truth of values
  | not =>
    refine agree_bind only fun v v' hv => ?_
    rw [hv.truthy_eq]
    exact out (.bool _)
  | toBool =>
    refine agree_bind only fun v v' hv => ?_
    rw [hv.truthy_eq]
    exact out (.bool _)
  | equal =>
    dsimp only
    rw [allEqual_eq hargs]
    exact out (.bool _)
  -- numbers are equal as soon as the values are alike
  | numbersEqual =>
    refine agree_bind numbers fun ns ns' same => ?_
    subst same
    exact out (.bool _)
  | less =>
    refine agree_bind numbers fun ns ns' same => ?_
    subst same
    exact out (.bool _)
  | add =>
    refine agree_bind numbers fun ns ns' same => ?_
    subst same
    exact out (.number _)
  | subtract =>
    refine agree_bind numbers fun ns ns' same => ?_
    subst same
    refine agree_bind (agree_ofExcept (Except.Alike.refl _)) fun n n' same => ?_
    subst same
    exact out (.number _)
  -- what takes values from an argument, or else from the input
  | count =>
    cases hargs with
    | nil =>
      refine agree_bind (agree_countInput hf) fun n n' same => ?_
      subst same
      exact out (.number _)
    | cons hv more =>
      cases more with
      | nil =>
        refine agree_bind (agree_ofExcept hv.elements) fun vs vs' hvs => ?_
        rw [hvs.length_eq]
        exact out (.number _)
      | cons => exact agree_fault _
  | all =>
    cases hargs with
    | nil =>
      exact agree_eachInput hf.ports fun v v' hv => agree_bind (out hv) fun _ _ _ => agree_pure rfl
    | cons hv more =>
      cases more with
      | nil =>
        exact agree_bind (agree_ofExcept hv.elements) fun vs vs' hvs =>
          agree_forM hvs fun _ _ hv => out hv
      | cons => exact agree_fault _
  | each => exact agree_each hr hf hargs
  -- values of a document refer to nothing
  | fromJson =>
    cases hargs with
    | nil =>
      refine agree_bind (agree_inputText hf) fun text text' same => ?_
      subst same
      exact agree_putJson hf _
    | cons hv more =>
      cases more with
      | nil =>
        dsimp only
        rw [hv.toWord_eq]
        refine agree_bind (agree_ofExcept (Except.Alike.refl _)) fun text text' same => ?_
        subst same
        exact agree_putJson hf _
      | cons => exact agree_fault _
  -- what is looked up: functions in the frame, and programs in the files
  | resolve =>
    refine agree_then word (fun name name' same => ?_) fun _ => by
      split
      · infer_instance
      · exact climbs_then inferInstance fun _ => by
          split <;> infer_instance
    subst same
    split
    · exact out (.text _)
    · rcases splitCommandName name with ⟨ns, base⟩
      refine agree_get fun w w' hw => ?_
      have found := hf.find? hw.store ns (base ++ "~")
      generalize f.find? w.store ns (base ++ "~") = place at found
      generalize f'.find? w'.store ns (base ++ "~") = place' at found
      cases found with
      | none => exact out (.text _)
      | some => exact out (.text _)
  | external =>
    refine agree_bind word fun name name' same => ?_
    subst same
    exact out (.function (.external _))
  | hasExternal =>
    refine agree_bind word fun name name' same => ?_
    subst same
    refine agree_get fun w w' hw => ?_
    rw [hw.environment, hw.files]
    exact out (.bool _)
  | searchExternal =>
    refine agree_then word (fun name name' same => ?_) fun _ =>
      climbs_then inferInstance fun _ => by
        split <;> infer_instance
    subst same
    refine agree_get fun w w' hw => ?_
    rw [hw.environment, hw.files]
    split
    · exact out (.text _)
    · exact agree_fault _

/-- Any function: a builtin, a closure or an external command. -/
theorem agree_callFunction {callable callable' : Callable} (hc : callable.Alike ρ callable')
    {args args' : List Value} (hargs : Values ρ args args') (mode : CallMode) :
    Agree ρ (fun _ _ => True) (r.callFunction callable args mode f)
      (r'.callFunction callable' args' mode f') := by
  cases hc with
  | closure hc => exact agree_callClosure hr hf hc hargs mode
  | builtin b => exact agree_builtin hr hf b hargs
  | external name => exact agree_runExternal hf name hargs

end Builtins

/-! ## Operations -/

section Operations

variable (hr : r.Alike ρ r') (hf : f.Alike ρ f')
include hr hf

/-- Operations one after the other. -/
theorem agree_chunk {ops : List Operation} (hops : ∀ op ∈ ops, (Code.operation op).Each ρ.Admits) :
    Agree ρ (fun _ _ => True) (r.chunk f ops) (r'.chunk f' ops) := by
  induction ops with
  | nil => exact agree_pure trivial
  | cons op rest ih =>
    exact agree_bind (hr.operation op f f' hf (hops op List.mem_cons_self)) fun _ _ _ =>
      ih fun op hop => hops op (List.mem_cons_of_mem _ hop)

/-- The stages of a pipeline are joined by queues that are matched. -/
theorem agree_stages {ops : List Operation}
    (hops : ∀ op ∈ ops, (Code.operation op).Each ρ.Admits) {input input' : Option QueueId}
    (hinput : Option.Rel ρ.Input input input') :
    Agree ρ (fun _ _ => True) (r.stages f input ops) (r'.stages f' input' ops) := by
  induction ops generalizing input input' with
  | nil => exact agree_pure trivial
  | cons stage rest ih =>
    have hstage := hops stage List.mem_cons_self
    cases rest with
    -- the last stage puts out where the pipeline does
    | nil =>
      refine hr.operation stage _ _ (hf.withPorts ?_) hstage
      exact ⟨hinput, hf.ports.values, hf.ports.bytes⟩
    -- any other one puts out to a queue of its own, which the next one reads
    | cons next rest =>
      refine agree_then agree_newQueue (fun q q' hq => ?_) fun _ =>
        climbs_then inferInstance fun outcome => climbs_then inferInstance fun _ =>
          climbs_outcome inferInstance inferInstance outcome
      have ports : Ports.Alike ρ ⟨input, .queue q, f.ports.bytes⟩
          ⟨input', .queue q', f'.ports.bytes⟩ := ⟨hinput, .queue hq.rel, hf.ports.bytes⟩
      refine agree_then (agree_settle (hr.operation stage _ _ (hf.withPorts ports) hstage))
        (fun outcome outcome' ends => ?_) fun outcome => climbs_then inferInstance fun _ =>
          climbs_outcome inferInstance inferInstance outcome
      refine agree_then (agree_settle (ih (fun op hop => hops op (List.mem_cons_of_mem _ hop))
        (.some hq))) (fun later later' hlater => ?_) fun _ =>
          climbs_outcome inferInstance inferInstance outcome
      cases ends with
      -- the first failure is what the pipeline fails with
      | ok => exact agree_resume hlater
      | error hu => exact agree_throw (.unwind hu)

/-- A command is found, its arguments are evaluated, and it is called. -/
theorem agree_callCommand {head : CallHead} {args : List Expr}
    (hparts : ∀ e ∈ head.parts ++ args, (Code.expr e).Each ρ.Admits) :
    Agree ρ (fun _ _ => True) (r.callCommand head args f) (r'.callCommand head args f') := by
  have hargs : ∀ e ∈ args, (Code.expr e).Each ρ.Admits := fun e he =>
    hparts e (List.mem_append_right _ he)
  cases head with
  | name name =>
    refine agree_bind (agree_findCommand hf name) fun callable callable' hcallable => ?_
    refine agree_bind (agree_exprs hr hf hargs) fun vs vs' hvs => ?_
    exact hr.call _ _ _ _ _ _ _ hcallable hvs hf
  | value e =>
    have he : (Code.expr e).Each ρ.Admits := hparts e List.mem_cons_self
    refine agree_bind (agree_callable hr hf he) fun callable callable' hcallable => ?_
    refine agree_bind (agree_exprs hr hf hargs) fun vs vs' hvs => ?_
    exact hr.call _ _ _ _ _ _ _ hcallable hvs hf

/-- **Operations**, case by case. -/
theorem agree_execute {op : Operation} (hop : (Code.operation op).Each ρ.Admits) :
    Agree ρ (fun _ _ => True) (r.execute op f) (r'.execute op f') := by
  refine agree_located (hf.site _) ?_
  cases op with
  -- in each case the parts are admitted because the operation is
  | chunk ops span => exact agree_chunk hr hf fun op h => hop.child (List.mem_map_of_mem h)
  | pipeline ops span =>
    exact agree_stages hr hf (fun op h => hop.child (List.mem_map_of_mem h)) hf.ports.input
  | call head args span =>
    exact agree_callCommand hr hf fun e he => hop.child (List.mem_map_of_mem he)
  | assign targets values span =>
    refine agree_assignment hr hf (fun e he => ?_) fun e he => ?_
    · exact hop.child (List.mem_map_of_mem (List.mem_append_left _ he))
    · exact hop.child (List.mem_map_of_mem (List.mem_append_right _ he))
  | conditional branches otherwise span =>
    refine agree_conditional hr hf (fun l hl => ?_) fun b hb c hc => ?_
    · exact hop.child (List.mem_append_right _ (List.mem_map_of_mem (Option.mem_toList.mpr hl)))
    · exact hop.child (List.mem_append_left _ (List.mem_flatMap_of_mem hb hc))
  | whileLoop condition body span =>
    refine agree_whileLoop hr hf (hop.child List.mem_cons_self) (hop.child ?_)
    exact List.mem_cons_of_mem _ List.mem_cons_self
  | forLoop target iterable body otherwise span =>
    refine agree_forLoop hr hf (fun e he => ?_) (hop.child ?_) (hop.child ?_) fun l hl => ?_
    · exact hop.child (List.mem_append_left _ (List.mem_append_left _ (List.mem_map_of_mem he)))
    · exact List.mem_append_left _ (List.mem_append_right _ List.mem_cons_self)
    · exact List.mem_append_left _
        (List.mem_append_right _ (List.mem_cons_of_mem _ List.mem_cons_self))
    · exact hop.child (List.mem_append_right _ (List.mem_map_of_mem (Option.mem_toList.mpr hl)))
  | tryBlock body handler otherwise finalizer span =>
    refine agree_tryBlock hr hf (hop.child List.mem_cons_self) (fun h hh c hc => ?_)
      (fun l hl => ?_) fun l hl => ?_
    · exact hop.child (List.mem_cons_of_mem _
        (List.mem_append_left _ (List.mem_flatMap_of_mem (Option.mem_toList.mpr hh) hc)))
    · exact hop.child (List.mem_cons_of_mem _ (List.mem_append_right _
        (List.mem_map_of_mem (List.mem_append_left _ (Option.mem_toList.mpr hl)))))
    · exact hop.child (List.mem_cons_of_mem _ (List.mem_append_right _
        (List.mem_map_of_mem (List.mem_append_right _ (Option.mem_toList.mpr hl)))))
  | connective stopAt args span =>
    exact agree_connective hr hf stopAt (fun e he => hop.child (List.mem_map_of_mem he)) (.bool _)
  | define name body span => exact agree_define hf name (hop.child List.mem_cons_self)
  | useModule name path span => exact agree_useModule hr hf name path
  | delete targets span => exact agree_delete hr hf fun e he => hop.child (List.mem_map_of_mem he)

end Operations
end Runner

end ValueShell
