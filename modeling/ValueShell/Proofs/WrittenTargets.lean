/-
  Targets as they are written.

  The spans of an element target are made by the compiler: where the name stops and where each bracket stops.  They
  are those of the syntax, whatever shape the left side has, so the span of a target up to a bracket is the text from
  where the target starts to where that bracket stops.  This is by recursion on the left side, and for `del` on the
  arguments.
-/
import ValueShell.Proofs.Scoped

namespace ValueShell

namespace Indexing

/-- From the start of a target to the end of one of its brackets, counted from one. -/
def upTo (i : Indexing) (k : Nat) : Span :=
  match i.brackets[k - 1]? with
  | some b => i.span.withStop b.span.stop
  | none => i.span

/-- The targets of a left side: the items of a braced list, or the whole. -/
def written : Indexing → List Indexing
  | ⟨.braced items _, _, _⟩ => items.flatMap Compound.indexings
  | i => [i]

end Indexing

/-- **What a target is written as**: its name, and a pair of brackets for each of its own. -/
structure ElementTarget.WrittenAs (e : ElementTarget) (i : Indexing) : Prop where
  named : ∃ text, i.head.literal? = some text ∧ e.ns = (Reference.ofText text).ns ∧
    e.name = (Reference.ofText text).name
  deep : e.brackets ≠ []
  span : e.span = i.span
  brackets : e.brackets.map IndexBracket.span = i.brackets.map Bracket.span
  stops : e.stops = i.head.span.stop :: i.brackets.map fun b => b.span.stop

namespace ElementTarget

variable {e : ElementTarget} {i : Indexing}

theorem WrittenAs.length_eq (h : e.WrittenAs i) : e.brackets.length = i.brackets.length := by
  rw [← List.length_map, h.brackets, List.length_map]

/-- **The span of a target up to a bracket** is that of the syntax. -/
theorem WrittenAs.spanTo (h : e.WrittenAs i) {k : Nat} (first : 1 ≤ k) (last : k ≤ e.brackets.length) :
    e.spanTo k = i.upTo k := by
  obtain ⟨n, rfl⟩ : ∃ n, k = n + 1 := ⟨k - 1, by omega⟩
  have inside : n < i.brackets.length := by rw [← h.length_eq]; exact last
  unfold ElementTarget.spanTo Indexing.upTo
  rw [h.stops, h.span, List.getElem?_cons_succ, List.getElem?_map, Nat.add_sub_cancel,
    List.getElem?_eq_getElem inside]
  rfl

theorem WrittenAs.ofIndexing {text : String} {bs : List IndexBracket} (literal : i.head.literal? = some text)
    (deep : i.brackets.isEmpty = false)
    (spans : bs.map IndexBracket.span = i.brackets.map Bracket.span) :
    (ElementTarget.ofIndexing i (Reference.ofText text).ns (Reference.ofText text).name bs).WrittenAs i where
  named := ⟨text, literal, rfl, rfl⟩
  deep := by
    rintro rfl
    rw [List.map_nil, eq_comm, List.map_eq_nil_iff] at spans
    rw [spans] at deep
    exact nomatch deep
  span := rfl
  brackets := spans
  stops := by
    have stops := congrArg (List.map Span.stop) spans
    rw [List.map_map, List.map_map] at stops
    exact congrArg (i.head.span.stop :: ·) stops

end ElementTarget

namespace Compile

variable {t t' : ScopeTable}

theorem compileBrackets_spans {written : List Bracket} {bs : List IndexBracket}
    (h : compileBrackets written t = .ok (bs, t')) :
    bs.map IndexBracket.span = written.map Bracket.span := by
  induction written generalizing bs t t' with
  | nil =>
    obtain ⟨rfl, -⟩ := pure_ok h
    rfl
  | cons b written ih =>
    obtain ⟨items, span⟩ := b
    obtain ⟨found, t₁, -, h⟩ := bind_ok h
    obtain ⟨later, t₂, compiled, h⟩ := bind_ok h
    obtain ⟨rfl, -⟩ := pure_ok h
    rw [List.map_cons, List.map_cons, ih compiled]

/-- A target with brackets is what it is written as. -/
theorem targetOf_written {i : Indexing} {explode : Bool} {e : ElementTarget}
    (h : targetOf i (compileBrackets i.brackets) t = .ok ((explode, .element e), t')) : e.WrittenAs i := by
  rw [targetOf] at h
  cases literal : i.head.literal? with
  | none =>
    rw [literal] at h
    exact (failAt_ok h).elim
  | some text =>
    rw [literal] at h
    dsimp only at h
    obtain ⟨-, h⟩ := unless_ok h
    cases deep : i.brackets.isEmpty with
    | true =>
      rw [deep, if_pos rfl] at h
      obtain ⟨table, t₁, -, h⟩ := bind_ok h
      cases assigned : table.assign? (Reference.ofText text).ns (Reference.ofText text).name with
      | none =>
        rw [assigned] at h
        exact (failAt_ok h).elim
      | some table' =>
        rw [assigned] at h
        obtain ⟨_, t₂, -, h⟩ := bind_ok h
        exact nomatch (pure_ok h).1
    | false =>
      rw [deep, if_neg Bool.false_ne_true] at h
      obtain ⟨-, h⟩ := unless_ok h
      obtain ⟨table, t₁, -, h⟩ := bind_ok h
      obtain ⟨-, h⟩ := when_ok h
      obtain ⟨bs, t₂, compiled, h⟩ := bind_ok h
      cases (pure_ok h).1
      exact .ofIndexing literal deep (compileBrackets_spans compiled)

theorem compileTargetItems_written : ∀ (items : List Compound) {t t' : ScopeTable} {fixed : List Target}
    {rest : Option Target} {e : ElementTarget}, compileTargetItems items t = .ok ((fixed, rest), t') →
      .element e ∈ fixed ++ rest.toList → ∃ i ∈ items.flatMap Compound.indexings, e.WrittenAs i
  | [], _, _, _, _, _, h, he => by
    cases (pure_ok h).1
    exact nomatch he
  | ⟨[⟨head, brackets, span⟩], _⟩ :: items, _, _, fixed, rest, e, h, he => by
    obtain ⟨⟨explode, target⟩, t₁, first, h⟩ := bind_ok h
    dsimp only at h
    split at h
    · split at h
      · cases (pure_ok h).1
        rw [← List.mem_singleton.mp he] at first
        exact ⟨⟨head, brackets, span⟩, List.mem_cons_self, targetOf_written first⟩
      · exact (failAt_ok h).elim
    · obtain ⟨⟨fixed', rest'⟩, t₂, later, h⟩ := bind_ok h
      cases (pure_ok h).1
      rcases List.mem_cons.mp he with he | he
      · rw [← he] at first
        exact ⟨⟨head, brackets, span⟩, List.mem_cons_self, targetOf_written first⟩
      · obtain ⟨i, hi, written⟩ := compileTargetItems_written items later he
        exact ⟨i, List.mem_cons_of_mem _ hi, written⟩
  | ⟨[], _⟩ :: _, _, _, _, _, _, h, _ => (failAt_ok h).elim
  | ⟨⟨_, _, _⟩ :: _ :: _, _⟩ :: _, _, _, _, _, _, h, _ => (failAt_ok h).elim

/-- A left side that is one target. -/
theorem oneTarget_written {i : Indexing} {span : Span} {targets : Targets} {e : ElementTarget}
    (h : (do
      let (explode, target) ← targetOf i (compileBrackets i.brackets)
      return if explode then ⟨[], some target, span⟩ else ⟨[target], none, span⟩ : Compile Targets) t =
        .ok (targets, t')) (he : .element e ∈ targets.all) : e.WrittenAs i := by
  obtain ⟨⟨explode, target⟩, t₁, compiled, h⟩ := bind_ok h
  have same : target = .element e := by
    cases (pure_ok h).1
    cases explode <;> exact (List.mem_singleton.mp he).symm
  rw [same] at compiled
  exact targetOf_written compiled

/-- **Every target with brackets is what it is written as**, alone or in a braced list. -/
theorem compileTargets_written {i : Indexing} {targets : Targets} {e : ElementTarget}
    (h : i.compileTargets t = .ok (targets, t')) (he : .element e ∈ targets.all) :
    ∃ j ∈ i.written, e.WrittenAs j := by
  obtain ⟨head, brackets, span⟩ := i
  cases head with
  | braced items inner =>
    rw [Indexing.compileTargets] at h
    obtain ⟨-, h⟩ := unless_ok h
    cases shape : misshapen? items with
    | some item =>
      rw [shape] at h
      exact (failAt_ok h).elim
    | none =>
      rw [shape] at h
      obtain ⟨⟨fixed, rest⟩, t₁, compiled, h⟩ := bind_ok h
      cases (pure_ok h).1
      exact compileTargetItems_written items compiled he
  | _ => exact ⟨_, List.mem_cons_self, oneTarget_written h he⟩

/-- So is every target of an assignment. -/
theorem assignment_written {a : Assignment} {targets : Targets} {values : List Expr} {span : Span}
    {e : ElementTarget} (h : a.compile t = .ok (.assign targets values span, t'))
    (he : .element e ∈ targets.all) : ∃ i ∈ a.left.written, e.WrittenAs i := by
  obtain ⟨left, right, outer⟩ := a
  obtain ⟨found, t₁, -, h⟩ := bind_ok h
  obtain ⟨ts, t₂, compiled, h⟩ := bind_ok h
  cases (pure_ok h).1
  exact compileTargets_written compiled he

/-- An argument that is a target is one indexing. -/
theorem mem_indexings_of_target {c : Compound} {x : TargetArgument} (hx : c.targetArgument? = some x) :
    x.indexing ∈ c.indexings ∧ x.brackets = compileBrackets x.indexing.brackets := by
  unfold Compound.targetArgument? at hx
  split at hx
  · cases hx
    exact ⟨List.mem_cons_self, rfl⟩
  · exact nomatch hx

/-- An argument of `del` with brackets is what it is written as. -/
theorem deletion_written {a : Argument} {e : ElementTarget}
    (h : SpecialForm.deletion a t = .ok (.element e, t')) : ∃ x, a.target? = some x ∧
      (x.brackets = compileBrackets x.indexing.brackets → e.WrittenAs x.indexing) := by
  rw [SpecialForm.deletion] at h
  cases hx : a.target? with
  | none =>
    rw [hx] at h
    exact (failAt_ok h).elim
  | some x =>
    rw [hx] at h
    dsimp only at h
    refine ⟨x, rfl, fun made => ?_⟩
    cases head : x.indexing.head with
    | bareword text span =>
      rw [head] at h
      dsimp only at h
      have literal : x.indexing.head.literal? = some text := by rw [head]; rfl
      obtain ⟨-, h⟩ := unless_ok h
      cases deep : x.indexing.brackets.isEmpty with
      | true =>
        rw [deep, if_pos rfl] at h
        by_cases here : (Reference.ofText text).ns = "" ∨ (Reference.ofText text).ns = "local"
        · rw [if_pos here] at h
          obtain ⟨table, t₁, -, h⟩ := bind_ok h
          obtain ⟨-, h⟩ := when_ok h
          obtain ⟨_, t₂, -, h⟩ := bind_ok h
          exact nomatch (pure_ok h).1
        rw [if_neg here] at h
        obtain ⟨-, h⟩ := when_ok h
        exact nomatch (pure_ok h).1
      | false =>
        rw [deep, if_neg Bool.false_ne_true] at h
        obtain ⟨table, t₁, -, h⟩ := bind_ok h
        obtain ⟨-, h⟩ := when_ok h
        obtain ⟨bs, t₂, compiled, h⟩ := bind_ok h
        cases (pure_ok h).1
        rw [made] at compiled
        exact .ofIndexing literal deep (compileBrackets_spans compiled)
    | reference | singleQuoted | doubleQuoted | capture | list | map | lambda | braced =>
      rw [head] at h
      exact (failAt_ok h).elim

/-- So is every element that `del` removes. -/
theorem deletions_written {args : List Compound} {ds : List Deletion} {e : ElementTarget}
    (h : SpecialForm.deletions (arguments args) t = .ok (ds, t')) (he : .element e ∈ ds) :
    ∃ i ∈ args.flatMap Compound.indexings, e.WrittenAs i := by
  induction args generalizing ds t t' with
  | nil =>
    cases (pure_ok h).1
    exact nomatch he
  | cons c args ih =>
    obtain ⟨d, t₁, first, h⟩ := bind_ok h
    obtain ⟨later, t₂, compiled, h⟩ := bind_ok h
    cases (pure_ok h).1
    rw [List.flatMap_cons]
    rcases List.mem_cons.mp he with he | he
    · rw [← he] at first
      obtain ⟨x, hx, written⟩ := deletion_written first
      obtain ⟨inside, made⟩ := mem_indexings_of_target hx
      exact ⟨x.indexing, List.mem_append_left _ inside, written made⟩
    · obtain ⟨i, hi, written⟩ := ih compiled he
      exact ⟨i, List.mem_append_right _ hi, written⟩

end Compile

end ValueShell
