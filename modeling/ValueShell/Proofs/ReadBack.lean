/-
  Printed values mean themselves.

  What the reader finds in a rendering (`Value.Reads`) has to be compiled and run before it is a value
  again.  Literals are values already, lists and maps are built from their parts, and the truth values are
  variables: so a rendering means its value where `true` and `false` mean what they say
  (`Frame.SeesTruth`), and compiles where both are visible.

  `put` of a rendering then puts out the value, if `put` is the builtin.  This last condition is not idle:
  a program may define a `put` of its own.
-/
import ValueShell.Proofs.Evolution
import ValueShell.Proofs.Printing
import ValueShell.Proofs.ReaderOffsets
import ValueShell.Session.Basic

namespace ValueShell

open Eval

/-! ## Data -/

/-- **Data**: texts, truth values, and lists and maps of data, where the keys of a map ascend. -/
inductive Value.IsData : Value → Prop
  | text {s : String} : IsData (.text s)
  | bool {b : Bool} : IsData (.bool b)
  | list {vs : List Value} (all : ∀ v ∈ vs, IsData v) : IsData (.list vs)
  | map {entries : List (String × Value)} (sorted : Table.Sorted entries)
      (all : ∀ e ∈ entries, IsData e.2) : IsData (.map entries)

/-! ## Meaning -/

/-- What an unqualified name means in a frame. -/
def Frame.Means (f : Frame) (w : World) (name : String) (v : Value) : Prop :=
  ∃ place, f.find? w.store "" name = some place ∧ w.valueAt place = v

/-- A name means what the cell holds that it leads to. -/
theorem Frame.means_of_plain {f : Frame} {w : World} {name : String} {c : CellId} {v : Value}
    (found : f.findPlain? w.store name = some c) (holds : w.store.read c = v) : f.Means w name v :=
  ⟨.cell c, find?_of_plain found, holds⟩

/-- The truth values are not shadowed. -/
def Frame.SeesTruth (f : Frame) (w : World) : Prop :=
  ∀ b, f.Means w (Value.truthName b) (.bool b)

/-- **The expression means the value**, wherever the truth values do. -/
def Expr.Denotes (e : Expr) (v : Value) : Prop :=
  ∃ enough, ∀ fuel, enough ≤ fuel → ∀ f w, f.SeesTruth w →
    (Runner.ofFuel fuel).expr e f w = (.ok [v], w)

namespace Expr

/-- An expression means a value if it is evaluated to it, given what it is made of. -/
theorem denotes_of_evaluate {e : Expr} {v : Value}
    (h : ∃ enough, ∀ fuel, enough ≤ fuel → ∀ f w, f.SeesTruth w →
      (Runner.ofFuel fuel).evaluate e f w = (.ok [v], w)) : e.Denotes v := by
  obtain ⟨enough, h⟩ := h
  refine ⟨enough + 1, fun fuel hfuel f w hf => ?_⟩
  obtain ⟨fuel, rfl⟩ := Nat.exists_eq_succ_of_ne_zero (Nat.ne_zero_of_lt hfuel)
  exact h fuel (Nat.le_of_succ_le_succ hfuel) f w hf

/-- A literal is its text. -/
theorem denotes_literal (text : String) (span : Span) : (literal text span).Denotes (.text text) :=
  denotes_of_evaluate ⟨0, fun _ _ _ _ _ => rfl⟩

/-- A truth value is what its variable holds. -/
theorem denotes_truth (b : Bool) (span : Span) :
    (reference ⟨false, "", Value.truthName b⟩ span).Denotes (.bool b) := by
  refine denotes_of_evaluate ⟨0, fun fuel _ f w hf => located_run_ok ?_⟩
  obtain ⟨place, hplace, hv⟩ := hf b
  have read : readVariable f "" (Value.truthName b) w = (.ok (.bool b), w) := by
    rw [readVariable, get_bind_run, hplace, ← hv]
    rfl
  exact bind_run_ok read

/-- The expressions mean the values, one by one. -/
theorem exprs_run {es : List Expr} {vs : List Value} (h : List.Forall₂ Denotes es vs) :
    ∃ enough, ∀ fuel, enough ≤ fuel → ∀ f w, f.SeesTruth w →
      (Runner.ofFuel fuel).exprs f es w = (.ok vs, w) := by
  induction h with
  | nil => exact ⟨0, fun _ _ _ _ _ => rfl⟩
  | @cons e v es vs he _ ih =>
    obtain ⟨first, hfirst⟩ := he
    obtain ⟨rest, hrest⟩ := ih
    refine ⟨max first rest, fun fuel hfuel f w hf => ?_⟩
    obtain ⟨hle, hle'⟩ := Nat.max_le.mp hfuel
    rw [Runner.exprs, bind_run_ok (hfirst fuel hle f w hf), bind_run_ok (hrest fuel hle' f w hf)]
    rfl

/-- A list is the values of its items. -/
theorem denotes_list {es : List Expr} {vs : List Value} (h : List.Forall₂ Denotes es vs)
    (span : Span) : (list es span).Denotes (.list vs) := by
  obtain ⟨enough, hes⟩ := exprs_run h
  exact denotes_of_evaluate ⟨enough, fun fuel hfuel f w hf =>
    located_run_ok (bind_run_ok (hes fuel hfuel f w hf))⟩

/-- A pair of expressions means an entry. -/
def PairDenotes (pair : Expr × Expr) (e : String × Value) : Prop :=
  pair.1.Denotes (.text e.1) ∧ pair.2.Denotes e.2

theorem single_run {e : Expr} {v : Value} {fuel : Nat} {f : Frame} {w : World} (what : String)
    (h : (Runner.ofFuel fuel).expr e f w = (.ok [v], w)) :
    (Runner.ofFuel fuel).single what e f w = (.ok v, w) := by
  rw [Runner.single, bind_run_ok h]
  rfl

/-- The entries of a map are added one after the other. -/
theorem mapOnto_run {pairs : List (Expr × Expr)} {entries : List (String × Value)}
    (h : List.Forall₂ PairDenotes pairs entries) :
    ∃ enough, ∀ fuel, enough ≤ fuel → ∀ f w, f.SeesTruth w → ∀ t,
      (Runner.ofFuel fuel).mapOnto f t pairs w = (.ok (Table.overlay t entries), w) := by
  -- the map built so far is arbitrary, as it grows with every entry
  induction h with
  | nil => exact ⟨0, fun _ _ _ _ _ _ => rfl⟩
  | @cons pair e pairs entries he _ ih =>
    obtain ⟨⟨first, hkey⟩, second, hvalue⟩ := he
    obtain ⟨rest, hrest⟩ := ih
    refine ⟨max (max first second) rest, fun fuel hfuel f w hf t => ?_⟩
    obtain ⟨hle, hrestle⟩ := Nat.max_le.mp hfuel
    obtain ⟨hkeyle, hvaluele⟩ := Nat.max_le.mp hle
    rw [Runner.mapOnto, bind_run_ok (single_run _ (hkey fuel hkeyle f w hf)),
      bind_run_ok (single_run _ (hvalue fuel hvaluele f w hf))]
    exact hrest fuel hrestle f w hf (t.insert e.1 e.2)

/-- A map is the entries of its pairs. -/
theorem denotes_map {pairs : List (Expr × Expr)} {entries : List (String × Value)}
    (h : List.Forall₂ PairDenotes pairs entries) (sorted : Table.Sorted entries) (span : Span) :
    (map pairs span).Denotes (.map entries) := by
  obtain ⟨enough, hpairs⟩ := mapOnto_run h
  refine denotes_of_evaluate ⟨enough, fun fuel hfuel f w hf => located_run_ok ?_⟩
  refine (bind_run_ok (hpairs fuel hfuel f w hf [])).trans ?_
  -- the keys ascend, so that adding the entries one by one keeps their order
  rw [show Table.overlay [] entries = entries from Table.ofList_of_sorted sorted]
  rfl

end Expr

/-! ## Compilation -/

/-- Both truth values can be read. -/
def ScopeTable.SeesTruth (t : ScopeTable) : Prop :=
  ∀ b, t.visible (Value.truthName b) = true

/-- Both truth values are bound where a session starts. -/
theorem Builtin.truth_mem_bindings (b : Bool) (processId : String) :
    (Value.truthName b, .bool b) ∈ bindings processId := by
  refine List.mem_append_right _ ?_
  cases b with
  | false => exact List.mem_cons_of_mem _ List.mem_cons_self
  | true => exact List.mem_cons_self

/-- No session starts without them. -/
theorem Session.start_seesTruth (library : Library) (environment : Environment) (files : FileTree)
    (processId : String) (globals : List String) {s : Session}
    (hs : Session.start library environment files processId = s) :
    (ScopeTable.start (s.world.store.names s.setting.builtins) globals).SeesTruth := by
  intro b
  obtain ⟨store, hstore, heq⟩ := Session.start_eq library environment files processId
  rw [hs] at heq
  subst heq
  have bound : Value.truthName b ∈ (Builtin.bindings processId).map Prod.fst :=
    List.mem_map.mpr ⟨_, Builtin.truth_mem_bindings b processId, rfl⟩
  have known : (⟨0⟩ : ScopeId).index < (Store.empty.newScope []).2.scopes.size := Nat.zero_lt_one
  have mem : Value.truthName b ∈ store.names ⟨0⟩ := by
    rw [hstore]
    exact (Store.mem_names_bindConstants known _).mpr (.inl bound)
  have size : 0 < store.scopes.size := by
    rw [hstore, Store.size_bindConstants]
    exact known
  have names : (store.newScope []).2.names ⟨0⟩ = store.names ⟨0⟩ :=
    congrArg Table.names (Store.scope_newScope_of_lt store [] size)
  rw [ScopeTable.visible, ScopeTable.start]
  dsimp only
  rw [names, List.contains_iff_mem.mpr mem, Bool.or_true]

/-- **Every builtin means what it is bound to** in the first unit of a session: neither the globals nor the scope
that the unit adds have names yet. -/
theorem Session.start_means (library : Library) (environment : Environment) (files : FileTree)
    (processId : String) (source : Source) (ports : Ports) {name : String} {v : Value}
    (bound : (name, v) ∈ Builtin.bindings processId) :
    let s := Session.start library environment files processId
    (s.frame source ports ⟨s.world.store.scopes.size⟩).Means
      { s.world with store := (s.world.store.newScope []).2 } name v := by
  intro s
  obtain ⟨store, hstore, heq⟩ := Session.start_eq library environment files processId
  have known : (⟨0⟩ : ScopeId).index < (Store.empty.newScope []).2.scopes.size := Nat.zero_lt_one
  have size : 0 < store.scopes.size := by
    rw [hstore, Store.size_bindConstants]
    exact known
  obtain ⟨c, found, holds⟩ := Store.find?_bindConstants known (Builtin.distinct_bindings processId) bound
  rw [← hstore] at found holds
  -- the globals are a new scope, and above them there is another
  let outer := (store.newScope []).2
  let inner := (outer.newScope []).2
  have grown : outer.scopes.size = store.scopes.size + 1 := Store.size_newScope store []
  have globals : inner.scope ⟨store.scopes.size⟩ = [] :=
    (Store.scope_newScope_of_lt outer [] (Nat.lt_of_lt_of_eq (Nat.lt_succ_self _) grown.symm)).trans
      (Store.scope_newScope_self store [])
  have up : inner.scope ⟨outer.scopes.size⟩ = [] := Store.scope_newScope_self outer []
  have builtins : inner.scope ⟨0⟩ = store.scope ⟨0⟩ :=
    (Store.scope_newScope_of_lt outer [] (Nat.lt_of_lt_of_eq (Nat.succ_pos _) grown.symm)).trans
      (Store.scope_newScope_of_lt store [] size)
  have read : inner.read c = v := by
    rw [Store.read, show inner.cell? c = some (.constant v) from holds]
    rfl
  rw [show s = _ from heq]
  refine Frame.means_of_plain (c := c) ?_ read
  show ((Table.find? (inner.scope ⟨store.scopes.size⟩) name).or
    (Table.find? (inner.scope ⟨outer.scopes.size⟩) name)).or (Table.find? (inner.scope ⟨0⟩) name) = some c
  rw [globals, up, builtins]
  exact found

/-- The truth values among them. -/
theorem Session.start_frame_seesTruth (library : Library) (environment : Environment) (files : FileTree)
    (processId : String) (source : Source) (ports : Ports) :
    let s := Session.start library environment files processId
    (s.frame source ports ⟨s.world.store.scopes.size⟩).SeesTruth
      { s.world with store := (s.world.store.newScope []).2 } :=
  fun b => start_means library environment files processId source ports (Builtin.truth_mem_bindings b processId)

/-- **The primary stands for the value**: it compiles to an expression that means it, and is not an
equals sign, which would make an assignment of a command. -/
structure Primary.Spells (v : Value) (p : Primary) : Prop where
  notEquals : p.bareword? ≠ some "="
  compiles : ∀ t, t.SeesTruth → ∃ e, p.compile t = .ok (e, t) ∧ e.Denotes v

namespace Compile

theorem bind_run_ok {α β : Type} {x : Compile α} {k : α → Compile β} {t t' : ScopeTable} {a : α}
    (h : x t = .ok (a, t')) : (x >>= k) t = k a t' := by
  show (x t).bind _ = _
  rw [h]
  rfl

end Compile

namespace Primary

/-- A text compiles to a literal. -/
theorem compile_literal {p : Primary} {s : String} (h : p.literal? = some s) (t : ScopeTable) :
    ∃ e, p.compile t = .ok (e, t) ∧ e.Denotes (.text s) := by
  cases p with
  | bareword text span | singleQuoted text span | doubleQuoted text span =>
    cases h
    exact ⟨.literal s span, rfl, Expr.denotes_literal s span⟩
  | reference | capture | list | map | lambda | braced => exact nomatch h

/-- A literal spells its text. -/
theorem spells_literal {p : Primary} {s : String} (h : p.literal? = some s)
    (notEquals : p.bareword? ≠ some "=") : p.Spells (.text s) :=
  ⟨notEquals, fun t _ => compile_literal h t⟩

/-- The name of a truth value spells it. -/
theorem spells_truth (b : Bool) (span : Span) :
    (reference (Value.truthName b) span).Spells (.bool b) := by
  refine ⟨nofun, fun t ht => ⟨_, ?_, Expr.denotes_truth b span⟩⟩
  -- no colon and no other mark in the names of the truth values
  have text : Reference.ofText (Value.truthName b) = ⟨false, "", Value.truthName b⟩ := by
    cases b <;> decide
  rw [Primary.compile, text]
  show (if t.visible (Value.truthName b) = true then pure (.reference _ span) else _ :
    Compile Expr) t = _
  rw [if_pos (ht b)]
  rfl

end Primary

/-- A compound of one primary compiles as it does. -/
theorem Compound.IsOne.compiles {c : Compound} {v : Value} (h : c.IsOne (Primary.Spells v))
    {t : ScopeTable} (ht : t.SeesTruth) : ∃ e, c.compile t = .ok (e, t) ∧ e.Denotes v := by
  obtain ⟨p, span, span', rfl, hp⟩ := h
  exact hp.compiles t ht

/-- Items compile one by one. -/
theorem compileCompounds_run {cs : List Compound} {vs : List Value}
    (h : List.Forall₂ (fun c v => Compound.IsOne (Primary.Spells v) c) cs vs) {t : ScopeTable}
    (ht : t.SeesTruth) :
    ∃ es, compileCompounds cs t = .ok (es, t) ∧ List.Forall₂ Expr.Denotes es vs := by
  induction h with
  | nil => exact ⟨[], rfl, .nil⟩
  | cons hc _ ih =>
    obtain ⟨e, he, hv⟩ := hc.compiles ht
    obtain ⟨es, hes, hvs⟩ := ih
    refine ⟨e :: es, ?_, .cons hv hvs⟩
    rw [compileCompounds, Compile.bind_run_ok he, Compile.bind_run_ok hes]
    rfl

/-- So do pairs. -/
theorem compilePairs_run {pairs : List MapPair} {entries : List (String × Value)}
    (h : List.Forall₂ (Grammar.IsPair Primary.Spells) pairs entries) {t : ScopeTable}
    (ht : t.SeesTruth) :
    ∃ made, compilePairs pairs t = .ok (made, t) ∧
      List.Forall₂ Expr.PairDenotes made entries := by
  induction h with
  | nil => exact ⟨[], rfl, .nil⟩
  | @cons pair e pairs entries hpair _ ih =>
    obtain ⟨key, value, span⟩ := pair
    obtain ⟨⟨p, s, s', rfl, hliteral⟩, hvalue⟩ := hpair
    obtain ⟨k, hk, hkey⟩ := Primary.compile_literal hliteral t
    obtain ⟨v, hv, hmeans⟩ := hvalue.compiles ht
    obtain ⟨made, hmade, hentries⟩ := ih
    refine ⟨(k, v) :: made, ?_, .cons ⟨hkey, hmeans⟩ hentries⟩
    have compiled : Compound.compile ⟨[⟨p, [], s⟩], s'⟩ t = .ok (k, t) := hk
    rw [compilePairs, Compile.bind_run_ok compiled, Compile.bind_run_ok hv,
      Compile.bind_run_ok hmade]
    rfl

namespace Primary

/-- A list spells the values that its items spell. -/
theorem spells_list {items : List Compound} {vs : List Value} {span : Span}
    (h : List.Forall₂ (fun c v => c.IsOne (Spells v)) items vs) :
    (list items span).Spells (.list vs) := by
  refine ⟨nofun, fun t ht => ?_⟩
  obtain ⟨es, hes, hvs⟩ := compileCompounds_run h ht
  refine ⟨.list es span, ?_, Expr.denotes_list hvs span⟩
  rw [Primary.compile, Compile.bind_run_ok hes]
  rfl

/-- And a map spells its entries. -/
theorem spells_map {pairs : List MapPair} {entries : List (String × Value)} {span : Span}
    (h : List.Forall₂ (Grammar.IsPair Spells) pairs entries) (sorted : Table.Sorted entries) :
    (map pairs span).Spells (.map entries) := by
  refine ⟨nofun, fun t ht => ?_⟩
  obtain ⟨made, hmade, hentries⟩ := compilePairs_run h ht
  refine ⟨.map made span, ?_, Expr.denotes_map hentries sorted span⟩
  rw [Primary.compile, Compile.bind_run_ok hmade]
  rfl

end Primary

/-! ## The way back -/

/-- **A rendering stands for its value**, by induction on the value. -/
theorem Value.IsData.reads {v : Value} (data : v.IsData) :
    Value.Reads (Primary.Spells v) v.repr.toList := by
  induction data with
  | @text s => exact (Value.reads_quoted s).mono fun p hp => Primary.spells_literal hp.1 hp.2
  | @bool b =>
    refine (Value.reads_bool b).mono fun p hp => ?_
    obtain ⟨span, rfl⟩ := hp
    exact Primary.spells_truth b span
  | list _ ih =>
    refine (Value.reads_list Primary.Spells ih).mono fun p hp => ?_
    obtain ⟨items, span, rfl, hitems⟩ := hp
    exact Primary.spells_list hitems
  | map sorted _ ih =>
    refine (Value.reads_map Primary.Spells ih).mono fun p hp => ?_
    obtain ⟨pairs, span, rfl, hpairs⟩ := hp
    exact Primary.spells_map hpairs sorted

/-- `put` of an expression that means a value puts it out. -/
theorem put_run {e : Expr} {v : Value} (he : e.Denotes v) (span span' : Span) :
    ∃ enough, ∀ fuel, enough ≤ fuel → ∀ f w, f.SeesTruth w →
      f.Means w "put~" (.function (.builtin .put)) →
        (Runner.ofFuel fuel).operation (.chunk [.call (.name "put") [e] span] span') f w =
          (.ok (), { w with streams := w.streams.put f.ports.values v }) := by
  obtain ⟨enough, hargs⟩ := Expr.exprs_run (.cons he .nil)
  -- the chunk, the call and the function each take a level, the argument takes the rest
  refine ⟨enough + 3, fun fuel hfuel f w hf hput => ?_⟩
  obtain ⟨n, rfl⟩ : ∃ n, fuel = n + 3 := Nat.exists_eq_add_of_le' (by omega)
  obtain ⟨place, hplace, hv⟩ := hput
  have found : findCommand f "put" w = (.ok (.builtin .put), w) := by
    have split : splitCommandName "put" = ("", "put") := by decide
    rw [findCommand, split]
    dsimp only
    rw [get_bind_run, show "put" ++ "~" = "put~" from rfl, hplace]
    dsimp only
    rw [hv]
    rfl
  have called : (Runner.ofFuel (n + 1)).callCommand (.name "put") [e] f w =
      (.ok (), { w with streams := w.streams.put f.ports.values v }) := by
    refine (bind_run_ok found).trans ?_
    exact bind_run_ok (hargs (n + 1) (by omega) f w hf)
  have operation : (Runner.ofFuel (n + 2)).operation (.call (.name "put") [e] span) f w =
      (.ok (), { w with streams := w.streams.put f.ports.values v }) := located_run_ok called
  exact located_run_ok (bind_run_ok operation)

/-- The rendering of data after the name of a command, read as a unit. -/
theorem Value.IsData.readChunk {v : Value} (data : v.IsData)
    (short : byteLength ("put " ++ v.repr).toList < UInt32.size) :
    ∃ chunk, ValueShell.readChunk ("put " ++ v.repr) = .ok chunk ∧
      Grammar.IsUnit "put" (Primary.Spells v) chunk := by
  have code : ("put " ++ v.repr).toList = ['p', 'u', 't'] ++ ' ' :: v.repr.toList := by
    rw [String.toList_append]
    rfl
  have reads : TextReader.Leads (Grammar.unit (v.repr.toList.length + 5))
      (['p', 'u', 't'] ++ ' ' :: v.repr.toList) [] (Grammar.IsUnit "put" (Primary.Spells v)) :=
    Grammar.leads_unit (fun p hp => hp.notEquals) nofun (List.all_eq_true.mp rfl) data.reads
      ⟨by omega, by omega⟩ (Nat.le_add_left 4 _)
  obtain ⟨chunk, offset, hchunk, hunit⟩ := reads 0
  refine ⟨chunk, ?_, hunit⟩
  refine readChunk_ok_iff.mpr ⟨short, ⟨offset, []⟩, ?_⟩
  rw [code]
  exact hchunk

/-- A command with such an argument compiles to a call. -/
theorem compileUnit_command {v : Value} {chunk : Chunk}
    (h : Grammar.IsUnit "put" (Primary.Spells v) chunk) {builtins globals : List String}
    (visible : (ScopeTable.start builtins globals).SeesTruth) :
    ∃ e span span', e.Denotes v ∧
      compileUnit builtins globals chunk = .ok (.chunk [.call (.name "put") [e] span] span') := by
  -- one pipeline with one form, whose head is a literal that names no special form
  obtain ⟨_, s, s', rfl, head, arg, span, rfl, ⟨p, s₁, s₂, rfl, hname⟩, harg⟩ := h
  obtain ⟨e, he, hmeans⟩ := harg.compiles visible
  have args : compileCompounds [arg] (ScopeTable.start builtins globals) =
      .ok ([e], ScopeTable.start builtins globals) := by
    rw [compileCompounds, Compile.bind_run_ok he]
    rfl
  have literal : Compound.literal? ⟨[⟨p, [], s₁⟩], s₂⟩ = some "put" := hname
  have ordinary : SpecialForm.ofName? "put" = none := by decide
  have form : Form.compile (.command ⟨[⟨p, [], s₁⟩], s₂⟩ [arg] span)
      (ScopeTable.start builtins globals) =
        .ok (.call (.name "put") [e] span, ScopeTable.start builtins globals) := by
    simp only [Form.compile, literal, ordinary]
    rw [Compile.bind_run_ok args]
    rfl
  have pipeline : Pipeline.compile ⟨[.command ⟨[⟨p, [], s₁⟩], s₂⟩ [arg] span], s⟩
      (ScopeTable.start builtins globals) =
        .ok (.call (.name "put") [e] span, ScopeTable.start builtins globals) := by
    rw [Pipeline.compile, compileForms, Compile.bind_run_ok (Compile.bind_run_ok form)]
    rfl
  refine ⟨e, span, s', hmeans, ?_⟩
  rw [compileUnit, Chunk.compile, compilePipelines,
    Compile.bind_run_ok (Compile.bind_run_ok pipeline)]
  rfl

/-- **Printing undoes reading.**  The code `put` and the rendering of some data, if it has fewer than 2^32 bytes,
is read, and compiles where the truth values are visible.  Run wherever they mean what they say, and where `put` means the builtin, it
puts out the data and does nothing else. -/
theorem Value.put_repr {v : Value} (data : v.IsData) (short : byteLength ("put " ++ v.repr).toList < UInt32.size) :
    ∃ chunk, readChunk ("put " ++ v.repr) = .ok chunk ∧
      ∀ builtins globals, (ScopeTable.start builtins globals).SeesTruth →
        ∃ op, compileUnit builtins globals chunk = .ok op ∧
          ∃ enough, ∀ fuel, enough ≤ fuel → ∀ f w, f.SeesTruth w →
            f.Means w "put~" (.function (.builtin .put)) →
              (Runner.ofFuel fuel).operation op f w =
                (.ok (), { w with streams := w.streams.put f.ports.values v }) := by
  -- reading happens once; compiling and running are for all tables and frames
  obtain ⟨chunk, hchunk, hunit⟩ := data.readChunk short
  refine ⟨chunk, hchunk, fun builtins globals visible => ?_⟩
  obtain ⟨e, span, span', he, hop⟩ := compileUnit_command hunit visible
  exact ⟨_, hop, put_run he span span'⟩

/-- For a list that needs quotes, a truth value and a map, in a session that has just started. -/
theorem Value.put_repr_nested :
    let v : Value := .list [.text "it's", .bool true, .map [("a b", .text "")]]
    let s : Session := .start ⟨none, []⟩ ⟨[]⟩ default "1"
    let w : World := { s.world with store := (s.world.store.newScope []).2 }
    let f : Frame := s.frame (.interactive "") .standard ⟨s.world.store.scopes.size⟩
    v.IsData ∧ ∃ chunk op fuel, readChunk "put ['it''s' $true [&'a b'='']]" = .ok chunk ∧
      compileUnit (s.world.store.names s.setting.builtins) (s.world.store.names s.globals) chunk = .ok op ∧
      (Runner.ofFuel fuel).operation op f w =
        (.ok (), { w with streams := w.streams.put .standard v }) := by
  intro v s w f
  have data : v.IsData := by
    refine .list fun x hx => ?_
    simp only [List.mem_cons, List.not_mem_nil, or_false] at hx
    rcases hx with rfl | rfl | rfl
    · exact .text
    · exact .bool
    · refine .map (List.pairwise_singleton ..) fun e he => ?_
      rw [List.mem_singleton.mp he]
      exact .text
  have seesTruth : f.SeesTruth w := Session.start_frame_seesTruth ⟨none, []⟩ ⟨[]⟩ default "1" _ _
  have seesPut : f.Means w "put~" (.function (.builtin .put)) :=
    Session.start_means ⟨none, []⟩ ⟨[]⟩ default "1" _ _ (Builtin.command_mem_bindings .put "1")
  have code : "put " ++ v.repr = "put ['it''s' $true [&'a b'='']]" := by decide +kernel
  have short : byteLength ("put " ++ v.repr).toList < UInt32.size := by
    rw [code]
    decide +kernel
  obtain ⟨chunk, hchunk, compiles⟩ := Value.put_repr data short
  obtain ⟨op, hop, enough, runs⟩ :=
    compiles _ _ (Session.start_seesTruth ⟨none, []⟩ ⟨[]⟩ default "1" (s.world.store.names s.globals) rfl)
  exact ⟨data, chunk, op, enough, code ▸ hchunk, hop,
    runs enough (Nat.le_refl _) f w seesTruth seesPut⟩

/-- `put` has to mean the builtin: after `fn put { }`, which leaves the truth values alone, `put a` ends
well and puts out nothing. -/
theorem Value.put_shadowed :
    let start : Session := .start ⟨none, []⟩ ⟨[]⟩ default "1"
    let s := (start.evaluate 60 (.interactive "fn put \x7b \x7d") .standard).2
    let ran := s.evaluateCaptured 60 (.interactive ("put " ++ (Value.text "a").repr)) none
    s.world.store.names s.globals = ["put~"] ∧ (ran.1 matches .done) = true ∧
      ran.2.1.values.isEmpty = true := by
  decide +kernel

end ValueShell
