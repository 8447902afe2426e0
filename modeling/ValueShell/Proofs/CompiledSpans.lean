/-
  Compiled code is placed.

  All spans in compiled code come from the syntax: from nodes, from the ends of nodes, or from two nodes merged.  The
  nodes of a text that was read are exact, so every span at which the code may place a failure is a window of the
  text between two character boundaries, and so is the span of every problem that compilation stops at.

  `Compile.Gives` says both at once of a step of the compiler.  The special forms come first, for arguments that give
  placed code however they are compiled; those that the compiler hands them do, by induction over the syntax.
-/
import ValueShell.Operation.Compile
import ValueShell.Operation.Marks
import ValueShell.Proofs.ExactSpans
import ValueShell.Proofs.ScopedCompilation

namespace ValueShell

variable {code : List Char}

/-! ## Windows -/

/-- **A window of the code**: it lies in the code, between two character boundaries. -/
structure Span.Window (code : List Char) (s : Span) : Prop where
  ordered : s.start ≤ s.stop
  inside : s.stop ≤ byteLength code
  starts : IsBoundary code s.start
  stops : IsBoundary code s.stop

namespace Span.Window

variable {s s' : Span}

/-- A window is between two boundaries, in order. -/
theorem of_boundaries (starts : IsBoundary code s.start) (stops : IsBoundary code s.stop)
    (ordered : s.start ≤ s.stop) : s.Window code := ⟨ordered, stops.le, starts, stops⟩

/-- A single place of the code is a window. -/
theorem point {n : Nat} (h : IsBoundary code n) : (Span.point n).Window code := of_boundaries h h (Nat.le_refl n)

/-- From the start of one window to the end of another. -/
theorem merge (h : s.Window code) (h' : s'.Window code) : (s.merge s').Window code := by
  refine of_boundaries ?_ ?_ ?_
  · show IsBoundary code (min s.start s'.start)
    rcases Nat.le_total s.start s'.start with le | le
    · rw [Nat.min_eq_left le]
      exact h.starts
    · rw [Nat.min_eq_right le]
      exact h'.starts
  · show IsBoundary code (max s.stop s'.stop)
    rcases Nat.le_total s.stop s'.stop with le | le
    · rw [Nat.max_eq_right le]
      exact h'.stops
    · rw [Nat.max_eq_left le]
      exact h.stops
  · exact Nat.le_trans (Nat.min_le_left ..) (Nat.le_trans h.ordered (Nat.le_max_left ..))

end Span.Window

/-- Each of the spans lies between the two offsets. -/
theorem Span.InOrder.of_mem {start stop : Nat} {spans : List Span} (h : InOrder start stop spans) {s : Span}
    (hs : s ∈ spans) : start ≤ s.start ∧ s.start ≤ s.stop ∧ s.stop ≤ stop := by
  induction spans generalizing start with
  | nil => exact nomatch hs
  | cons first later ih =>
    obtain ⟨hstart, hle, hlater⟩ := h
    rcases List.mem_cons.mp hs with rfl | hs
    · exact ⟨hstart, hle, hlater.le⟩
    · have := ih hlater hs
      omega

/-- A node that is whole has a window. -/
theorem Node.Whole.window {n : Node} (h : n.Whole code) : n.span.Window code :=
  ⟨h.exact.ordered, h.exact.inside, h.exact.starts, h.exact.stops⟩

/-! ## Placed code -/

/-- **Every mark in the code is a window** of the text. -/
def Code.Placed (code : List Char) (c : Code) : Prop :=
  ∀ d : Code, d.Inside c → ∀ span, d.Marks span → span.Window code

/-- Code is placed if its own marks are, and all of its parts. -/
theorem Code.Placed.of {c : Code} (own : ∀ span, c.Marks span → span.Window code)
    (parts : ∀ d ∈ c.children, d.Placed code) : c.Placed code := by
  intro d inside
  cases inside with
  | self => exact own
  | child hd inside => exact parts _ hd d inside

/-- A placed target: so are its expressions, and every span that may be blamed. -/
structure Target.Placed (code : List Char) (t : Target) : Prop where
  span : t.span.Window code
  upTo : ∀ e, t = .element e → ∀ level, (e.spanTo level).Window code
  parts : ∀ e ∈ t.parts, (Code.expr e).Placed code

/-- All targets are placed. -/
def Targets.Placed (code : List Char) (ts : Targets) : Prop :=
  ∀ t ∈ ts.fixed ++ ts.rest.toList, t.Placed code

/-- The parts of targets are placed. -/
theorem Targets.Placed.parts {ts : Targets} (h : ts.Placed code) : ∀ e ∈ ts.parts, (Code.expr e).Placed code := by
  intro e he
  obtain ⟨t, ht, he⟩ := List.mem_flatMap.mp he
  exact (h t ht).parts e he

/-- Placed brackets, which have the spans that they were written with. -/
structure Brackets.Placed (code : List Char) (written : List Bracket) (bs : List IndexBracket) : Prop where
  spans : bs.map IndexBracket.span = written.map Bracket.span
  items : ∀ b ∈ bs, ∀ e ∈ b.items, (Code.expr e).Placed code

/-- The brackets of an indexing are whole. -/
theorem Node.Whole.brackets {i : Indexing} (whole : (Node.indexing i).Whole code) :
    ∀ b ∈ i.brackets, (Node.bracket b).Whole code := fun _ hb =>
  whole.child (List.mem_cons_of_mem _ (List.mem_map_of_mem hb))

/-- Compiled brackets have the windows of those that were written. -/
theorem Brackets.Placed.window {written : List Bracket} {bs : List IndexBracket} (h : Placed code written bs)
    (whole : ∀ b ∈ written, (Node.bracket b).Whole code) : ∀ b ∈ bs, b.span.Window code := by
  intro b hb
  have same : b.span ∈ written.map Bracket.span := h.spans ▸ List.mem_map_of_mem hb
  obtain ⟨b', hb', same⟩ := List.mem_map.mp same
  exact same ▸ (whole b' hb').window

/-- A target that is blamed up to one of its brackets. -/
theorem Brackets.Placed.spanTo {i : Indexing} {bs : List IndexBracket} (h : Placed code i.brackets bs)
    (whole : (Node.indexing i).Whole code) (ns name : String) (level : Nat) :
    ((ElementTarget.ofIndexing i ns name bs).spanTo level).Window code := by
  have stops : ∀ stop ∈ i.head.span.stop :: bs.map (·.span.stop),
      IsBoundary code stop ∧ i.span.start ≤ stop := by
    intro stop hs
    -- each of them is where a child of the indexing stops
    have child : ∃ n ∈ (Node.indexing i).children, n.span.stop = stop := by
      rcases List.mem_cons.mp hs with rfl | hs
      · exact ⟨.primary i.head, List.mem_cons_self, rfl⟩
      · have same : bs.map (·.span.stop) = i.brackets.map (·.span.stop) := by
          have := congrArg (List.map Span.stop) h.spans
          simpa only [List.map_map, Function.comp_def] using this
        rw [same] at hs
        obtain ⟨b, hb, rfl⟩ := List.mem_map.mp hs
        exact ⟨.bracket b, List.mem_cons_of_mem _ (List.mem_map_of_mem hb), rfl⟩
    obtain ⟨n, hn, rfl⟩ := child
    have between := whole.exact.nested.of_mem (List.mem_map_of_mem hn)
    exact ⟨(whole.child hn).window.stops, Nat.le_trans between.1 between.2.1⟩
  have blamed (stop : Option Nat) (hs : ∀ n ∈ stop, n ∈ i.head.span.stop :: bs.map (·.span.stop)) :
      (i.span.withStop (stop.getD i.span.stop)).Window code := by
    cases stop with
    | none => exact whole.window
    | some n =>
      obtain ⟨boundary, le⟩ := stops n (hs n rfl)
      exact .of_boundaries whole.window.starts boundary le
  refine blamed _ fun n hn => ?_
  rcases Option.or_eq_some_iff.mp hn with hn | ⟨-, hn⟩
  · exact List.mem_of_getElem? hn
  · exact List.mem_of_getLast? hn

/-- An operation is placed if its span, its targets, its deletions and its parts are. -/
theorem Code.placed_operation {op : Operation} (span : op.span.Window code)
    (targets : ∀ ts, op.Assigns ts → ts.Placed code)
    (deletions : ∀ ds s, op = .delete ds s → ∀ e, .element e ∈ ds → ∀ level, (e.spanTo level).Window code)
    (parts : ∀ d ∈ (Code.operation op).children, d.Placed code) : (Code.operation op).Placed code := by
  refine .of (fun s marks => ?_) parts
  cases marks with
  | operation => exact span
  | target of h => exact (targets _ of _ h).span
  | element of h level => exact (targets _ of _ h).upTo _ rfl level
  | deletion h level => exact deletions _ _ rfl _ h level

/-- Most operations have neither targets nor deletions. -/
theorem Code.placed_plain {op : Operation} (span : op.span.Window code) (targets : ∀ ts, ¬op.Assigns ts)
    (deletions : ∀ ds s, op ≠ .delete ds s) (parts : ∀ d ∈ (Code.operation op).children, d.Placed code) :
    (Code.operation op).Placed code :=
  placed_operation span (fun ts of => absurd of (targets ts)) (fun ds s same => absurd same (deletions ds s)) parts

theorem Code.placed_lambda {l : Lambda} (h : (Code.operation l.body).Placed code) : (Code.lambda l).Placed code :=
  .of nofun fun d hd => by
    rw [List.mem_singleton.mp hd]
    exact h

/-- An expression without brackets. -/
theorem Code.placed_expr {e : Expr} (span : e.span.Window code)
    (brackets : ∀ head bs s, e = .index head bs s → ∀ b ∈ bs, b.span.Window code)
    (parts : ∀ d ∈ (Code.expr e).children, d.Placed code) : (Code.expr e).Placed code := by
  refine .of (fun s marks => ?_) parts
  cases marks with
  | expr => exact span
  | bracket h => exact brackets _ _ _ rfl _ h

theorem Code.placed_map {es : List Expr} (h : ∀ e ∈ es, (Code.expr e).Placed code) :
    ∀ d ∈ es.map Code.expr, d.Placed code := List.forall_mem_map.mpr h

/-! ## Steps of the compiler -/

namespace Compile

variable {α β : Type} {Q : α → Prop} {Q' : β → Prop}

/-- **What a step of the compiler gives**: a result of which `Q` holds, or a problem in a window of the code. -/
def Gives (code : List Char) (x : Compile α) (Q : α → Prop) : Prop :=
  ∀ t, match x t with
    | .ok (a, _) => Q a
    | .error e => e.span.Window code

/-- What is returned is as said. -/
theorem gives_pure {a : α} (h : Q a) : Gives code (pure a) Q := fun _ => h

/-- A problem is reported in a window. -/
theorem gives_failAt {problem : CompileProblem} {span : Span} (h : span.Window code) :
    Gives code (failAt problem span : Compile α) Q := fun _ => h

/-- **One step after the other.** -/
theorem gives_bind {x : Compile α} {k : α → Compile β} (hx : Gives code x Q) (hk : ∀ a, Q a → Gives code (k a) Q') :
    Gives code (x >>= k) Q' := by
  intro t
  have first := hx t
  show match (x t).bind (fun r => k r.1 r.2) with
    | .ok (b, _) => Q' b
    | .error e => e.span.Window code
  rcases hrun : x t with e | ⟨a, t'⟩ <;> rw [hrun] at first
  · exact first
  · exact hk a first t'

theorem gives_then {x : Compile α} {k : α → Compile β} (hx : Gives code x fun _ => True)
    (hk : ∀ a, Gives code (k a) Q') : Gives code (x >>= k) Q' := gives_bind hx fun a _ => hk a

/-- One more item. -/
theorem gives_cons {x : Compile α} {xs : Compile (List α)} (hx : Gives code x Q)
    (hxs : Gives code xs fun as => ∀ a ∈ as, Q a) :
    Gives code (do return (← x) :: (← xs)) fun as => ∀ a ∈ as, Q a :=
  gives_bind hx fun _ ha => gives_bind hxs fun _ has => gives_pure (List.forall_mem_cons.mpr ⟨ha, has⟩)

/-- The table of scopes has no spans. -/
theorem gives_get : Gives code (get : Compile ScopeTable) fun _ => True := fun _ => trivial

theorem gives_set (t : ScopeTable) : Gives code (set t : Compile PUnit) fun _ => True := fun _ => trivial

theorem gives_modify (change : ScopeTable → ScopeTable) :
    Gives code (modify change : Compile PUnit) fun _ => True := fun _ => trivial

/-- Less may be said of the result. -/
theorem Gives.mono {Q' : α → Prop} {x : Compile α} (h : Gives code x Q) (hq : ∀ a, Q a → Q' a) :
    Gives code x Q' := by
  intro t
  have here := h t
  rcases hrun : x t with e | ⟨a, t'⟩ <;> rw [hrun] at here
  · exact here
  · exact hq a here

end Compile

open Compile

/-- **A placed argument**: however it is compiled, it gives placed code. -/
structure Argument.Placed (code : List Char) (a : Argument) : Prop where
  span : a.span.Window code
  expr : Gives code a.expr fun e => (Code.expr e).Placed code
  lambda : ∀ x ∈ a.lambda?, Gives code x fun l => (Code.lambda l).Placed code
  targets : ∀ x ∈ a.target?, Gives code x.targets (Targets.Placed code)
  whole : ∀ x ∈ a.target?, (Node.indexing x.indexing).Whole code
  brackets : ∀ x ∈ a.target?, Gives code x.brackets (Brackets.Placed code x.indexing.brackets)

/-- All arguments are placed. -/
def Argument.AllPlaced (code : List Char) (args : List Argument) : Prop := ∀ a ∈ args, a.Placed code

theorem Argument.AllPlaced.head {a : Argument} {rest : List Argument} (h : AllPlaced code (a :: rest)) :
    a.Placed code := h a List.mem_cons_self

theorem Argument.AllPlaced.tail {a : Argument} {rest : List Argument} (h : AllPlaced code (a :: rest)) :
    AllPlaced code rest := fun b hb => h b (List.mem_cons_of_mem _ hb)

/-! ## Special forms -/

namespace SpecialForm

variable {args : List Argument} {stop : Nat} {span : Span}

/-- Code for a part that need not be there, with the arguments that are left. -/
def Leaves (code : List Char) (r : Option Lambda × List Argument) : Prop :=
  (∀ l ∈ r.1, (Code.lambda l).Placed code) ∧ Argument.AllPlaced code r.2

theorem leaves_none (all : Argument.AllPlaced code args) : Leaves code (none, args) :=
  ⟨fun _ none => absurd none (Option.not_mem_none _), all⟩

section Steps

/-- A body is a lambda that was placed in its argument. -/
theorem gives_body {a : Argument} (h : a.Placed code) : Gives code a.body fun l => (Code.lambda l).Placed code := by
  unfold Argument.body
  split
  · next x hx => exact h.lambda x hx
  · exact gives_failAt h.span

/-- Arguments are compiled one after the other. -/
theorem gives_exprs (all : Argument.AllPlaced code args) :
    Gives code (exprs args) fun es => ∀ e ∈ es, (Code.expr e).Placed code := by
  induction args with
  | nil => exact gives_pure nofun
  | cons a rest ih => exact gives_cons all.head.expr (ih all.tail)

variable (here : IsBoundary code stop) (all : Argument.AllPlaced code args)
include all

theorem gives_nothingElse : Gives code (nothingElse args) fun _ => True := by
  cases args with
  | nil => exact gives_pure trivial
  | cons first rest =>
    refine gives_failAt ?_
    cases hlast : rest.getLast? with
    | none => exact all.head.span
    | some last => exact all.head.span.merge (all.tail last (List.mem_of_getLast? hlast)).span

include here

/-- The next argument is placed. -/
theorem gives_next : Gives code (next stop args) fun r => r.1.Placed code ∧ Argument.AllPlaced code r.2 := by
  cases args with
  | nil => exact gives_failAt (.point here)
  | cons a rest => exact gives_pure ⟨all.head, all.tail⟩

theorem gives_nextBody : Gives code (nextBody stop args) fun r =>
    (Code.lambda r.1).Placed code ∧ Argument.AllPlaced code r.2 :=
  gives_bind (gives_next here all) fun _ ⟨placed, rest⟩ =>
    gives_bind (gives_body placed) fun _ body => gives_pure ⟨body, rest⟩

theorem gives_bodyAfter (word : String) : Gives code (bodyAfter word stop args) (Leaves code) := by
  cases args with
  | nil => exact gives_pure (leaves_none all)
  | cons a rest =>
    rw [bodyAfter]
    split
    · refine gives_bind (gives_nextBody here all.tail) fun r read => gives_pure ⟨fun l hl => ?_, read.2⟩
      cases hl
      exact read.1
    · exact gives_pure (leaves_none all)

omit all in
/-- The conditions and bodies of an `if`. -/
theorem gives_branches {args : List Argument} (all : Argument.AllPlaced code args) :
    Gives code (branches stop args) fun r =>
      (∀ b ∈ r.1, ∀ d ∈ Code.ofBranch b, d.Placed code) ∧ Argument.AllPlaced code r.2 := by
  -- one branch and its `elif` take three arguments, so the induction is on how many there are
  induction count : args.length using Nat.strongRecOn generalizing args with
  | _ n ih =>
    cases args with
    | nil => exact gives_failAt (.point here)
    | cons first rest =>
      cases rest with
      | nil => exact gives_bind all.head.expr fun _ _ => gives_failAt (.point here)
      | cons second rest =>
        rw [branches]
        refine gives_bind all.head.expr fun condition hc => gives_bind (gives_body all.tail.head) fun body hb => ?_
        have branch : ∀ d ∈ Code.ofBranch ⟨condition, body⟩, d.Placed code :=
          List.forall_mem_cons.mpr ⟨hc, List.forall_mem_singleton.mpr hb⟩
        cases rest with
        | nil => exact gives_pure ⟨List.forall_mem_singleton.mpr branch, all.tail.tail⟩
        | cons word rest =>
          dsimp only
          split
          · have fewer : rest.length < n := by
              simp only [List.length_cons] at count
              omega
            refine gives_bind (ih _ fewer all.tail.tail.tail rfl) fun r found => gives_pure ⟨?_, found.2⟩
            exact List.forall_mem_cons.mpr ⟨branch, found.1⟩
          · exact gives_pure ⟨List.forall_mem_singleton.mpr branch, all.tail.tail⟩

/-- The `except` part with its variable. -/
theorem gives_exceptPart : Gives code (exceptPart stop args) fun r =>
    (∀ h ∈ r.1, (∀ d ∈ Code.ofHandler h, d.Placed code) ∧ ∀ ts ∈ h.target, ts.Placed code) ∧
      Argument.AllPlaced code r.2 := by
  have target {args : List Argument} (all : Argument.AllPlaced code args) :
      Gives code (exceptTarget args) fun r => (∀ ts ∈ r.1, ts.Placed code) ∧ Argument.AllPlaced code r.2 := by
    have unnamed : (∀ ts ∈ (none : Option Targets), ts.Placed code) ∧ Argument.AllPlaced code args :=
      ⟨fun _ none => absurd none (Option.not_mem_none _), all⟩
    cases args with
    | nil => exact gives_pure unnamed
    | cons a rest =>
      rw [exceptTarget]
      split
      · exact gives_pure unnamed
      · next x hx =>
        split
        · exact gives_pure unnamed
        · refine gives_bind (all.head.targets x hx) fun ts hts => ?_
          split
          · next extra hextra =>
            exact gives_failAt (hts extra (List.mem_append_right _ (Option.mem_toList.mpr hextra))).span
          · refine gives_pure ⟨fun t ht => ?_, all.tail⟩
            cases ht
            exact hts
  have without : (∀ h ∈ (none : Option Handler), (∀ d ∈ Code.ofHandler h, d.Placed code) ∧
      ∀ ts ∈ h.target, ts.Placed code) ∧ Argument.AllPlaced code args :=
    ⟨fun _ none => absurd none (Option.not_mem_none _), all⟩
  cases args with
  | nil => exact gives_pure without
  | cons word rest =>
    rw [exceptPart]
    split
    · refine gives_bind (target all.tail) ?_
      rintro ⟨named, rest⟩ ⟨placed, left⟩
      refine gives_bind (gives_nextBody here left) ?_
      rintro ⟨body, rest⟩ ⟨inner, left⟩
      refine gives_pure ⟨fun h hh => ?_, left⟩
      cases hh
      refine ⟨fun d hd => ?_, placed⟩
      rcases List.mem_append.mp hd with hd | hd
      · obtain ⟨e, he, rfl⟩ := List.mem_map.mp hd
        obtain ⟨ts, hts, he⟩ := List.mem_flatMap.mp he
        exact (placed ts (Option.mem_toList.mp hts)).parts e he
      · rw [List.mem_singleton.mp hd]
        exact inner
    · exact gives_pure without

end Steps

section Forms

variable (whole : span.Window code) (all : Argument.AllPlaced code args)
include whole all

/-- **`if`.**  The problem of a missing part is reported at the end of what is there. -/
theorem gives_if : Gives code (compileIf span args) fun op => (Code.operation op).Placed code := by
  refine gives_bind (gives_branches whole.stops all) fun ⟨found, rest⟩ ⟨branches, left⟩ =>
    gives_bind (gives_bodyAfter whole.stops left "else") fun ⟨otherwise, rest⟩ ⟨last, left⟩ =>
      gives_then (gives_nothingElse left) fun _ => gives_pure (Code.placed_plain whole nofun nofun fun d hd => ?_)
  rcases List.mem_append.mp hd with hd | hd
  · obtain ⟨b, hb, hd⟩ := List.mem_flatMap.mp hd
    exact branches b hb d hd
  · obtain ⟨l, hl, rfl⟩ := List.mem_map.mp hd
    exact last l (Option.mem_toList.mp hl)

/-- **`while`.** -/
theorem gives_while : Gives code (compileWhile span args) fun op => (Code.operation op).Placed code :=
  gives_bind (gives_next whole.stops all) fun _ ⟨first, left⟩ =>
    gives_bind first.expr fun _ condition =>
      gives_bind (gives_nextBody whole.stops left) fun _ ⟨body, left⟩ =>
        gives_then (gives_nothingElse left) fun _ =>
          gives_pure (Code.placed_plain whole nofun nofun
            (List.forall_mem_cons.mpr ⟨condition, List.forall_mem_singleton.mpr body⟩))

/-- **`for`.** -/
theorem gives_for : Gives code (compileFor span args) fun op => (Code.operation op).Placed code := by
  refine gives_bind (gives_next whole.stops all) fun ⟨first, rest⟩ ⟨placed, left⟩ => ?_
  dsimp only
  split
  · exact gives_failAt placed.span
  · next x hx =>
    refine gives_bind (placed.targets x hx) fun target htarget => ?_
    split
    · next extra hextra =>
      exact gives_failAt (htarget extra (List.mem_append_right _ (Option.mem_toList.mpr hextra))).span
    · match rest, left with
      | [], _ => exact gives_failAt (.point whole.stops)
      | word :: rest, left =>
        dsimp only
        split
        · exact gives_failAt left.head.span
        · refine gives_bind (gives_next whole.stops left.tail) fun ⟨source, rest⟩ ⟨placed, left⟩ =>
            gives_bind placed.expr fun iterable source =>
              gives_bind (gives_nextBody whole.stops left) fun ⟨body, rest⟩ ⟨inner, left⟩ =>
                gives_bind (gives_bodyAfter whole.stops left "else") fun ⟨otherwise, rest⟩ ⟨last, left⟩ =>
                  gives_then (gives_nothingElse left) fun _ => gives_pure (Code.placed_operation whole ?_ nofun ?_)
          · rintro ts ⟨⟩
            exact htarget
          · intro d hd
            rcases List.mem_append.mp hd with hd | hd
            · rcases List.mem_append.mp hd with hd | hd
              · exact Code.placed_map htarget.parts d hd
              · exact List.forall_mem_cons.mpr ⟨source, List.forall_mem_singleton.mpr inner⟩ d hd
            · obtain ⟨l, hl, rfl⟩ := List.mem_map.mp hd
              exact last l (Option.mem_toList.mp hl)

/-- **`try`.** -/
theorem gives_try : Gives code (compileTry span args) fun op => (Code.operation op).Placed code := by
  refine gives_bind (gives_nextBody whole.stops all) fun ⟨body, rest⟩ ⟨inner, left⟩ =>
    gives_bind (gives_exceptPart whole.stops left) fun ⟨handler, rest⟩ ⟨handled, left⟩ =>
      gives_bind (gives_bodyAfter whole.stops left "else") fun ⟨otherwise, rest⟩ ⟨last, left⟩ =>
        gives_bind (gives_bodyAfter whole.stops left "finally") fun ⟨finalizer, rest⟩ ⟨final, left⟩ =>
          gives_then (gives_nothingElse left) fun _ => gives_pure (Code.placed_operation whole ?_ nofun ?_)
  · rintro ts ⟨⟩
    exact (handled _ rfl).2 ts rfl
  · intro d hd
    rcases List.mem_append.mp hd with hd | hd
    · rcases List.mem_cons.mp hd with rfl | hd
      · exact inner
      · obtain ⟨h, hh, hd⟩ := List.mem_flatMap.mp hd
        exact (handled h (Option.mem_toList.mp hh)).1 d hd
    · obtain ⟨l, hl, rfl⟩ := List.mem_map.mp hd
      rcases List.mem_append.mp hl with hl | hl
      · exact last l (Option.mem_toList.mp hl)
      · exact final l (Option.mem_toList.mp hl)

/-- **`fn`.** -/
theorem gives_fn : Gives code (compileFn span args) fun op => (Code.operation op).Placed code := by
  refine gives_bind (gives_next whole.stops all) fun ⟨first, rest⟩ ⟨placed, left⟩ => ?_
  dsimp only
  split
  · exact gives_failAt placed.span
  · exact gives_then (gives_modify _) fun _ =>
      gives_bind (gives_nextBody whole.stops left) fun _ ⟨body, left⟩ =>
        gives_then (gives_nothingElse left) fun _ =>
          gives_pure (Code.placed_plain whole nofun nofun (List.forall_mem_singleton.mpr body))

/-- **`use`.** -/
theorem gives_use {headStop : Nat} (head : IsBoundary code headStop) :
    Gives code (compileUse headStop span args) fun op => (Code.operation op).Placed code := by
  cases args with
  | nil => exact gives_failAt (.point head)
  | cons only others =>
    cases others with
    | nil =>
      rw [compileUse]
      split
      · exact gives_failAt all.head.span
      · exact gives_then (gives_modify _) fun _ => gives_pure (Code.placed_plain whole
          (fun _ assigns => by cases assigns) (fun _ _ same => by cases same) (List.forall_mem_nil _))
    | cons first rest =>
      refine gives_failAt (all.tail.head.span.merge ?_)
      cases hlast : rest.getLast? with
      | none => exact all.tail.head.span
      | some last => exact (all.tail.tail last (List.mem_of_getLast? hlast)).span

omit whole all in
/-- A deletion of an element has the windows of its brackets. -/
theorem gives_deletion {a : Argument} (h : a.Placed code) : Gives code (deletion a) fun d =>
    ∀ e, d = .element e → (∀ level, (e.spanTo level).Window code) ∧ ∀ x ∈ e.indices, (Code.expr x).Placed code := by
  unfold deletion
  split
  · exact gives_failAt h.span
  · next x hx =>
    split
    · exact gives_failAt h.span
    · dsimp only
      split
      · exact gives_failAt h.span
      · split
        · split
          · refine gives_then gives_get fun t => ?_
            split
            · exact gives_then (gives_modify _) fun _ => gives_pure nofun
            · exact gives_failAt h.span
          · split
            · exact gives_pure nofun
            · exact gives_failAt h.span
        · refine gives_then gives_get fun t => ?_
          split
          · refine gives_bind (h.brackets x hx) fun bs made => gives_pure fun e same => ?_
            cases same
            refine ⟨made.spanTo (h.whole x hx) _ _, fun i hi => ?_⟩
            obtain ⟨b, hb, hi⟩ := List.mem_flatMap.mp hi
            exact made.items b hb i hi
          · exact gives_failAt h.span
    · exact gives_failAt h.span

/-- **`del`.** -/
theorem gives_del :
    Gives code (return .delete (← deletions args) span) fun op => (Code.operation op).Placed code := by
  have each : Gives code (deletions args) fun ds => ∀ d ∈ ds, ∀ e, d = .element e →
      (∀ level, (e.spanTo level).Window code) ∧ ∀ x ∈ e.indices, (Code.expr x).Placed code := by
    induction args with
    | nil => exact gives_pure nofun
    | cons a rest ih => exact gives_cons (gives_deletion all.head) (ih all.tail)
  refine gives_bind each fun ds hds =>
    gives_pure (Code.placed_operation whole nofun ?_ (Code.placed_map fun x hx => ?_))
  · rintro ds s ⟨⟩ e he level
    exact (hds _ he e rfl).1 level
  · obtain ⟨d, hd, hx⟩ := List.mem_flatMap.mp hx
    cases d with
    | localName | environment => exact nomatch hx
    | element e => exact (hds _ hd e rfl).2 x hx

/-- **Every special form gives placed code**, from placed arguments. -/
theorem gives_compile (form : SpecialForm) {headStop : Nat} (head : IsBoundary code headStop) :
    Gives code (form.compile headStop span args) fun op => (Code.operation op).Placed code := by
  cases form with
  | ifForm => exact gives_if whole all
  | whileForm => exact gives_while whole all
  | forForm => exact gives_for whole all
  | tryForm => exact gives_try whole all
  | fnForm => exact gives_fn whole all
  | useForm => exact gives_use whole all head
  | delForm => exact gives_del whole all
  | andForm | orForm =>
    exact gives_bind (gives_exprs all) fun es hes =>
      gives_pure (Code.placed_plain whole nofun nofun (Code.placed_map hes))

end Forms

end SpecialForm

/-! ## Lambdas, targets and sequences -/

section Parts

variable {params : List Param}

/-- A signature reports its problems at parameters. -/
theorem gives_signature (h : ∀ p ∈ params, p.span.Window code) : Gives code (signature params) fun _ => True := by
  induction params with
  | nil => exact gives_pure trivial
  | cons p ps ih =>
    rw [signature]
    split
    · split
      · exact gives_pure trivial
      · exact gives_failAt (h p List.mem_cons_self)
    · exact gives_then (ih fun q hq => h q (List.mem_cons_of_mem _ hq)) fun _ => gives_pure trivial

/-- A lambda, given that its body compiles to placed code. -/
theorem gives_closeOver {body : Compile Operation} {span : Span} (h : ∀ p ∈ params, p.span.Window code)
    (hbody : Gives code body fun op => (Code.operation op).Placed code) :
    Gives code (closeOver params body span) fun l => (Code.lambda l).Placed code ∧ l.span = span :=
  gives_then (gives_signature h) fun _ => gives_then (gives_modify _) fun _ => gives_bind hbody fun _ inner =>
    gives_then (gives_modify _) fun _ => gives_pure ⟨Code.placed_lambda inner, rfl⟩

/-- A target that is a variable, given that its brackets compile to placed ones. -/
theorem gives_targetOf {i : Indexing} {brackets : Compile (List IndexBracket)} (whole : (Node.indexing i).Whole code)
    (hbrackets : Gives code brackets (Brackets.Placed code i.brackets)) :
    Gives code (targetOf i brackets) fun r => r.2.Placed code := by
  have head : i.head.span.Window code := (whole.child (m := .primary i.head) List.mem_cons_self).window
  unfold targetOf
  split
  · exact gives_failAt whole.window
  · dsimp only
    split
    · exact gives_failAt whole.window
    · split
      · refine gives_then gives_get fun t => ?_
        split
        · exact gives_failAt whole.window
        · exact gives_then (gives_set _) fun _ => gives_pure ⟨whole.window, nofun, nofun⟩
      · split
        · exact gives_failAt whole.window
        · refine gives_then gives_get fun t => ?_
          split
          · refine gives_bind hbrackets fun bs made => gives_pure ⟨whole.window, ?_, fun e he => ?_⟩
            · rintro e ⟨⟩ level
              exact made.spanTo whole _ _ level
            · obtain ⟨b, hb, he⟩ := List.mem_flatMap.mp he
              exact made.items b hb e he
          · exact gives_failAt head

/-- A left side that is one target. -/
theorem gives_oneTarget {i : Indexing} {brackets : Compile (List IndexBracket)} {span : Span}
    (whole : (Node.indexing i).Whole code) (hbrackets : Gives code brackets (Brackets.Placed code i.brackets)) :
    Gives code (do
      let (explode, target) ← targetOf i brackets
      return if explode then ⟨[], some target, span⟩ else ⟨[target], none, span⟩) (Targets.Placed code) := by
  refine gives_bind (gives_targetOf whole hbrackets) fun ⟨explode, target⟩ placed => gives_pure ?_
  cases explode <;> exact List.forall_mem_singleton.mpr placed

/-- One operation stands for itself. -/
theorem Code.placed_sequence {wrap : List Operation → Span → Operation} {span : Span} {ops : List Operation}
    (wrapped : (Code.operation (wrap ops span)).Placed code) (all : ∀ op ∈ ops, (Code.operation op).Placed code) :
    (Code.operation (Compile.sequence wrap span ops)).Placed code := by
  unfold Compile.sequence
  split
  · exact all _ List.mem_cons_self
  · exact wrapped

theorem Code.placed_operations {ops : List Operation} (h : ∀ op ∈ ops, (Code.operation op).Placed code) :
    ∀ d ∈ ops.map Code.operation, d.Placed code := List.forall_mem_map.mpr h

/-- A literal, and a variable. -/
theorem Code.placed_leaf {e : Expr} (span : e.span.Window code) (brackets : ∀ head bs s, e ≠ .index head bs s)
    (none : (Code.expr e).children = []) : (Code.expr e).Placed code :=
  placed_expr span (fun head bs s same => absurd same (brackets head bs s)) fun d hd => by
    rw [none] at hd
    exact nomatch hd

end Parts

/-! ## The syntax -/

mutual

/-- **A chunk of whole pipelines compiles to placed operations.** -/
theorem Chunk.gives_compile : ∀ (c : Chunk), (Node.chunk c).Whole code →
    Gives code c.compile fun op => (Code.operation op).Placed code
  | ⟨pipelines, _⟩, whole =>
    gives_bind (gives_pipelines pipelines fun _ hp => whole.child (List.mem_map_of_mem hp)) fun _ all =>
      gives_pure (Code.placed_plain whole.window nofun nofun (Code.placed_operations all))

theorem gives_pipelines : ∀ (ps : List Pipeline), (∀ p ∈ ps, (Node.pipeline p).Whole code) →
    Gives code (compilePipelines ps) fun ops => ∀ op ∈ ops, (Code.operation op).Placed code
  | [], _ => gives_pure nofun
  | p :: ps, whole => gives_cons (Pipeline.gives_compile p (whole p List.mem_cons_self))
      (gives_pipelines ps fun q hq => whole q (List.mem_cons_of_mem _ hq))

theorem Pipeline.gives_compile : ∀ (p : Pipeline), (Node.pipeline p).Whole code →
    Gives code p.compile fun op => (Code.operation op).Placed code
  | ⟨forms, _⟩, whole =>
    gives_bind (gives_forms forms fun _ hf => whole.child (List.mem_map_of_mem hf)) fun _ all =>
      gives_pure (Code.placed_sequence
        (Code.placed_plain whole.window nofun nofun (Code.placed_operations all)) all)

theorem gives_forms : ∀ (fs : List Form), (∀ f ∈ fs, (Node.form f).Whole code) →
    Gives code (compileForms fs) fun ops => ∀ op ∈ ops, (Code.operation op).Placed code
  | [], _ => gives_pure nofun
  | f :: fs, whole => gives_cons (Form.gives_compile f (whole f List.mem_cons_self))
      (gives_forms fs fun g hg => whole g (List.mem_cons_of_mem _ hg))

/-- A form: assignments, a special form, or a command. -/
theorem Form.gives_compile : ∀ (f : Form), (Node.form f).Whole code →
    Gives code f.compile fun op => (Code.operation op).Placed code
  | .assign assignments span, whole =>
    gives_bind (gives_assignments assignments fun a ha => whole.child (List.mem_map_of_mem ha)) fun _ all =>
      gives_pure (Code.placed_sequence
        (Code.placed_plain whole.window nofun nofun (Code.placed_operations all)) all)
  | .command head args span, whole => by
    have first : (Node.compound head).Whole code := whole.child List.mem_cons_self
    have others : ∀ c ∈ args, (Node.compound c).Whole code := fun c hc =>
      whole.child (List.mem_map_of_mem (List.mem_cons_of_mem _ hc))
    rw [Form.compile]
    split
    · split
      · exact SpecialForm.gives_compile whole.window (arguments_placed args others) _ first.window.stops
      · exact gives_bind (gives_compounds args others) fun es hes =>
          gives_pure (Code.placed_plain whole.window nofun nofun (Code.placed_map hes))
    · exact gives_bind (Compound.gives_compile head first) fun callee hcallee =>
        gives_bind (gives_compounds args others) fun es hes =>
          gives_pure (Code.placed_plain whole.window nofun nofun
            (Code.placed_map (List.forall_mem_cons.mpr ⟨hcallee, hes⟩)))

theorem gives_assignments : ∀ (as : List Assignment), (∀ a ∈ as, (Node.assignment a).Whole code) →
    Gives code (compileAssignments as) fun ops => ∀ op ∈ ops, (Code.operation op).Placed code
  | [], _ => gives_pure nofun
  | a :: as, whole => gives_cons (Assignment.gives_compile a (whole a List.mem_cons_self))
      (gives_assignments as fun b hb => whole b (List.mem_cons_of_mem _ hb))

/-- An assignment compiles its right side first. -/
theorem Assignment.gives_compile : ∀ (a : Assignment), (Node.assignment a).Whole code →
    Gives code a.compile fun op => (Code.operation op).Placed code
  | ⟨left, right, span⟩, whole => by
    have values : ∀ c ∈ right, (Node.compound c).Whole code := fun c hc =>
      whole.child (List.mem_cons_of_mem _ (List.mem_map_of_mem hc))
    refine gives_bind (gives_compounds right values) fun es hes =>
      gives_bind (Indexing.gives_compileTargets left (whole.child List.mem_cons_self)) fun targets htargets =>
        gives_pure (Code.placed_operation whole.window ?_ nofun (Code.placed_map fun e he => ?_))
    · rintro ts ⟨⟩
      exact htargets
    · rcases List.mem_append.mp he with he | he
      · exact htargets.parts e he
      · exact hes e he

/-- Targets are placed where they were written. -/
theorem Indexing.gives_compileTargets : ∀ (i : Indexing), (Node.indexing i).Whole code →
    Gives code i.compileTargets (Targets.Placed code)
  | ⟨.braced items inner, brackets, span⟩, whole => by
    have braced : (Node.primary (.braced items inner)).Whole code := whole.child List.mem_cons_self
    have each : ∀ c ∈ items, (Node.compound c).Whole code := fun c hc => braced.child (List.mem_map_of_mem hc)
    rw [Indexing.compileTargets]
    split
    · exact gives_failAt whole.window
    · split
      · next item hitem => exact gives_failAt (each item (List.mem_of_find?_eq_some hitem)).window
      · exact gives_bind (gives_targetItems items each) fun _ placed => gives_pure placed
  | ⟨.bareword text inner, brackets, span⟩, whole =>
    gives_oneTarget whole (gives_brackets brackets whole.brackets)
  | ⟨.singleQuoted text inner, brackets, span⟩, whole =>
    gives_oneTarget whole (gives_brackets brackets whole.brackets)
  | ⟨.doubleQuoted text inner, brackets, span⟩, whole =>
    gives_oneTarget whole (gives_brackets brackets whole.brackets)
  | ⟨.reference text inner, brackets, span⟩, whole =>
    gives_oneTarget whole (gives_brackets brackets whole.brackets)
  | ⟨.capture chunk inner, brackets, span⟩, whole =>
    gives_oneTarget whole (gives_brackets brackets whole.brackets)
  | ⟨.list items inner, brackets, span⟩, whole =>
    gives_oneTarget whole (gives_brackets brackets whole.brackets)
  | ⟨.map pairs inner, brackets, span⟩, whole =>
    gives_oneTarget whole (gives_brackets brackets whole.brackets)
  | ⟨.lambda params body inner, brackets, span⟩, whole =>
    gives_oneTarget whole (gives_brackets brackets whole.brackets)

theorem gives_targetItems : ∀ (items : List Compound), (∀ c ∈ items, (Node.compound c).Whole code) →
    Gives code (compileTargetItems items) fun r => ∀ t ∈ r.1 ++ r.2.toList, t.Placed code
  | [], _ => gives_pure nofun
  | ⟨[⟨head, brackets, span⟩], outer⟩ :: items, whole => by
    have here : (Node.indexing ⟨head, brackets, span⟩).Whole code :=
      (whole _ List.mem_cons_self).child List.mem_cons_self
    rw [compileTargetItems]
    refine gives_bind (gives_targetOf here (gives_brackets brackets here.brackets)) fun ⟨explode, target⟩ placed => ?_
    dsimp only
    split
    · split
      · exact gives_pure (List.forall_mem_singleton.mpr placed)
      · exact gives_failAt here.window
    · exact gives_bind (gives_targetItems items fun c hc => whole c (List.mem_cons_of_mem _ hc)) fun _ rest =>
        gives_pure (List.forall_mem_cons.mpr ⟨placed, rest⟩)
  | ⟨[], _⟩ :: _, whole => gives_failAt (whole _ List.mem_cons_self).window
  | ⟨_ :: _ :: _, _⟩ :: _, whole => by
    simp only [compileTargetItems]
    exact gives_failAt (whole _ List.mem_cons_self).window

theorem arguments_placed : ∀ (cs : List Compound), (∀ c ∈ cs, (Node.compound c).Whole code) →
    Argument.AllPlaced code (arguments cs)
  | [], _, _, ha => nomatch ha
  | c :: cs, whole, a, ha => by
    have here := whole c List.mem_cons_self
    rcases List.mem_cons.mp ha with rfl | ha
    · exact {
        span := here.window
        expr := Compound.gives_compile c here
        lambda := Compound.gives_compileLambda? c here
        targets := fun x hx => (Compound.gives_targetArgument? c here x hx).1
        whole := fun x hx => (Compound.gives_targetArgument? c here x hx).2.1
        brackets := fun x hx => (Compound.gives_targetArgument? c here x hx).2.2 }
    · exact arguments_placed cs (fun d hd => whole d (List.mem_cons_of_mem _ hd)) a ha

theorem Compound.gives_compileLambda? : ∀ (c : Compound), (Node.compound c).Whole code →
    ∀ x ∈ c.compileLambda?, Gives code x fun l => (Code.lambda l).Placed code
  | ⟨[⟨.lambda params body inner, [], outer⟩], span⟩, whole, x, hx => by
    cases hx
    have here : (Node.primary (.lambda params body inner)).Whole code :=
      (whole.child (m := .indexing ⟨.lambda params body inner, [], outer⟩) List.mem_cons_self).child
        List.mem_cons_self
    exact (gives_closeOver (fun p hp => (here.child (List.mem_append_left _ (List.mem_map_of_mem hp))).window)
      (Chunk.gives_compile body (here.child (List.mem_append_right _ List.mem_cons_self)))).mono fun _ h => h.1
  | ⟨[], _⟩, _, _, hx => nomatch hx
  | ⟨_ :: _ :: _, _⟩, _, _, hx => nomatch Compound.compileLambda?_shape hx
  | ⟨[⟨_, _ :: _, _⟩], _⟩, _, _, hx => nomatch Compound.compileLambda?_shape hx
  | ⟨[⟨.bareword .., [], _⟩], _⟩, _, _, hx => nomatch hx
  | ⟨[⟨.singleQuoted .., [], _⟩], _⟩, _, _, hx => nomatch hx
  | ⟨[⟨.doubleQuoted .., [], _⟩], _⟩, _, _, hx => nomatch hx
  | ⟨[⟨.reference .., [], _⟩], _⟩, _, _, hx => nomatch hx
  | ⟨[⟨.capture .., [], _⟩], _⟩, _, _, hx => nomatch hx
  | ⟨[⟨.list .., [], _⟩], _⟩, _, _, hx => nomatch hx
  | ⟨[⟨.map .., [], _⟩], _⟩, _, _, hx => nomatch hx
  | ⟨[⟨.braced .., [], _⟩], _⟩, _, _, hx => nomatch hx

theorem Compound.gives_targetArgument? : ∀ (c : Compound), (Node.compound c).Whole code →
    ∀ x ∈ c.targetArgument?, Gives code x.targets (Targets.Placed code) ∧
      (Node.indexing x.indexing).Whole code ∧ Gives code x.brackets (Brackets.Placed code x.indexing.brackets)
  | ⟨[⟨head, brackets, span⟩], _⟩, whole, x, hx => by
    cases hx
    have here : (Node.indexing ⟨head, brackets, span⟩).Whole code := whole.child List.mem_cons_self
    exact ⟨Indexing.gives_compileTargets ⟨head, brackets, span⟩ here, here, gives_brackets brackets here.brackets⟩
  | ⟨[], _⟩, _, _, hx => nomatch hx
  | ⟨_ :: _ :: _, _⟩, _, _, hx => nomatch Compound.targetArgument?_shape hx

theorem gives_compounds : ∀ (cs : List Compound), (∀ c ∈ cs, (Node.compound c).Whole code) →
    Gives code (compileCompounds cs) fun es => ∀ e ∈ es, (Code.expr e).Placed code
  | [], _ => gives_pure nofun
  | c :: cs, whole => gives_cons (Compound.gives_compile c (whole c List.mem_cons_self))
      (gives_compounds cs fun d hd => whole d (List.mem_cons_of_mem _ hd))

/-- A word of one part is that part. -/
theorem Compound.gives_compile : ∀ (c : Compound), (Node.compound c).Whole code →
    Gives code c.compile fun e => (Code.expr e).Placed code
  | ⟨[], _⟩, whole => gives_pure (Code.placed_leaf whole.window nofun rfl)
  | ⟨[only], _⟩, whole => Indexing.gives_compile only (whole.child List.mem_cons_self)
  | ⟨first :: second :: rest, _⟩, whole =>
    gives_bind (gives_indexings (first :: second :: rest) fun _ hi => whole.child (List.mem_map_of_mem hi))
      fun _ all => gives_pure (Code.placed_expr whole.window nofun (Code.placed_map all))

theorem gives_indexings : ∀ (is : List Indexing), (∀ i ∈ is, (Node.indexing i).Whole code) →
    Gives code (compileIndexings is) fun es => ∀ e ∈ es, (Code.expr e).Placed code
  | [], _ => gives_pure nofun
  | i :: is, whole => gives_cons (Indexing.gives_compile i (whole i List.mem_cons_self))
      (gives_indexings is fun j hj => whole j (List.mem_cons_of_mem _ hj))

theorem Indexing.gives_compile : ∀ (i : Indexing), (Node.indexing i).Whole code →
    Gives code i.compile fun e => (Code.expr e).Placed code
  | ⟨head, [], _⟩, whole => Primary.gives_compile head (whole.child List.mem_cons_self)
  | ⟨head, first :: rest, span⟩, whole => by
    refine gives_bind (Primary.gives_compile head (whole.child List.mem_cons_self)) fun found hfound =>
      gives_bind (gives_brackets (first :: rest) whole.brackets) fun bs made =>
        gives_pure (Code.placed_expr whole.window ?_ (Code.placed_map (List.forall_mem_cons.mpr ⟨hfound, ?_⟩)))
    · rintro head bs s ⟨⟩ b hb
      exact made.window whole.brackets b hb
    · intro e he
      obtain ⟨b, hb, he⟩ := List.mem_flatMap.mp he
      exact made.items b hb e he

theorem gives_brackets : ∀ (bs : List Bracket), (∀ b ∈ bs, (Node.bracket b).Whole code) →
    Gives code (compileBrackets bs) (Brackets.Placed code bs)
  | [], _ => gives_pure ⟨rfl, nofun⟩
  | ⟨items, span⟩ :: bs, whole =>
    gives_bind (gives_compounds items fun _ hc => (whole _ List.mem_cons_self).child (List.mem_map_of_mem hc))
      fun _ first => gives_bind (gives_brackets bs fun b hb => whole b (List.mem_cons_of_mem _ hb)) fun _ rest =>
        gives_pure ⟨congrArg (span :: ·) rest.spans, List.forall_mem_cons.mpr ⟨first, rest.items⟩⟩

/-- **Primaries**, case by case. -/
theorem Primary.gives_compile : ∀ (p : Primary), (Node.primary p).Whole code →
    Gives code p.compile fun e => (Code.expr e).Placed code
  | .bareword text span, whole => gives_pure (Code.placed_leaf whole.window nofun rfl)
  | .singleQuoted text span, whole => gives_pure (Code.placed_leaf whole.window nofun rfl)
  | .doubleQuoted text span, whole => gives_pure (Code.placed_leaf whole.window nofun rfl)
  | .reference text span, whole => by
    rw [Primary.compile]
    refine gives_then gives_get fun t => ?_
    split
    · exact gives_pure (Code.placed_leaf whole.window nofun rfl)
    · exact gives_failAt whole.window
  | .capture chunk span, whole =>
    gives_bind (Chunk.gives_compile chunk (whole.child List.mem_cons_self)) fun _ inner =>
      gives_pure (Code.placed_expr whole.window nofun (List.forall_mem_singleton.mpr inner))
  | .list items span, whole =>
    gives_bind (gives_compounds items fun c hc => whole.child (List.mem_map_of_mem hc)) fun _ all =>
      gives_pure (Code.placed_expr whole.window nofun (Code.placed_map all))
  | .map pairs span, whole => by
    refine gives_bind (gives_pairs pairs fun p hp => whole.child (List.mem_map_of_mem hp)) fun found all =>
      gives_pure (Code.placed_expr whole.window nofun fun d hd => ?_)
    obtain ⟨p, hp, hd⟩ := List.mem_flatMap.mp hd
    exact List.forall_mem_cons.mpr ⟨(all p hp).1, List.forall_mem_singleton.mpr (all p hp).2⟩ d hd
  | .lambda params body span, whole => by
    have names : ∀ p ∈ params, p.span.Window code := fun p hp =>
      (whole.child (List.mem_append_left _ (List.mem_map_of_mem hp))).window
    refine gives_bind (gives_closeOver names
      (Chunk.gives_compile body (whole.child (List.mem_append_right _ List.mem_cons_self)))) fun l ⟨placed, same⟩ =>
        gives_pure (Code.placed_expr ?_ nofun (List.forall_mem_singleton.mpr placed))
    show l.span.Window code
    rw [same]
    exact whole.window
  | .braced items span, whole =>
    gives_bind (gives_compounds items fun c hc => whole.child (List.mem_map_of_mem hc)) fun _ all =>
      gives_pure (Code.placed_expr whole.window nofun (Code.placed_map all))

theorem gives_pairs : ∀ (ps : List MapPair), (∀ p ∈ ps, (Node.pair p).Whole code) →
    Gives code (compilePairs ps) fun found =>
      ∀ p ∈ found, (Code.expr p.1).Placed code ∧ (Code.expr p.2).Placed code
  | [], _ => gives_pure nofun
  | ⟨key, value, span⟩ :: ps, whole => by
    have here := whole ⟨key, value, span⟩ List.mem_cons_self
    exact gives_bind (Compound.gives_compile key (here.child List.mem_cons_self)) fun _ hkey =>
      gives_bind (Compound.gives_compile value (here.child (List.mem_cons_of_mem _ List.mem_cons_self)))
        fun _ hvalue => gives_bind (gives_pairs ps fun p hp => whole p (List.mem_cons_of_mem _ hp)) fun _ rest =>
          gives_pure (List.forall_mem_cons.mpr ⟨⟨hkey, hvalue⟩, rest⟩)

end

/-! ## Units -/

/-- A source text that parses is read into whole nodes. -/
theorem readChunk_whole {text : String} {chunk : Chunk} (h : readChunk text = .ok chunk) :
    (Node.chunk chunk).Whole text.toList := by
  obtain ⟨-, c, hunit⟩ := readChunk_ok_iff.mp h
  unfold Grammar.unit at hunit
  obtain ⟨found, c₁, hfound, hunit⟩ := TextReader.run_bind_ok hunit
  obtain ⟨next, -, hunit⟩ := TextReader.run_peek hunit
  split at hunit
  · exact (Reader.unexpected_not_ok hunit).elim
  · obtain ⟨rfl, rfl⟩ := TextReader.run_pure_ok hunit
    exact (chunk_ok (inner_exact text.toList _ _) ⟨[], rfl, rfl⟩ hfound).whole

/-- **What a text compiles to is placed in it**, and so is the problem if it does not compile. -/
theorem compileUnit_placed {text : String} {chunk : Chunk} (h : readChunk text = .ok chunk)
    (builtins globals : List String) :
    match compileUnit builtins globals chunk with
    | .ok op => (Code.operation op).Placed text.toList
    | .error e => e.span.Window text.toList := by
  have given := Chunk.gives_compile chunk (readChunk_whole h) (ScopeTable.start builtins globals)
  unfold compileUnit
  rcases hc : chunk.compile (ScopeTable.start builtins globals) with e | ⟨op, t⟩ <;> rw [hc] at given
  · exact given
  · exact given

end ValueShell
