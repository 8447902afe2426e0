/-
  Words with several values.

  A compound word has a text for every CHOICE of a value of each part, and an indexing an element for every choice
  of a value that is indexed and of a key of each pair of brackets.  Both are computed from the left, a list of
  what there is so far being rebuilt with every part.  What comes out of it is the product as it is written down
  at once (`choices`), in the order in which the leftmost choice changes last.

  The parts are evaluated along the way.  An evaluation of them all, one after the other, is `mapM`; the word ends in
  the world that this ends in, whatever the parts do to the world, so each of them is evaluated once and in its turn.
  It makes no difference that some part has no values and the product is empty from there on.
-/
import Mathlib.Data.List.ProdSigma
import ValueShell.Proofs.AssignmentRuns

namespace ValueShell

open Eval

/-! ## Choices -/

/-- **The ways to choose an element of each list**; of two choices, the first list where they differ decides which
comes first. -/
def choices {α : Type} : List (List α) → List (List α)
  | [] => [[]]
  | xs :: rest => xs.flatMap fun x => (choices rest).map (x :: ·)

example : choices [[1, 2], [3, 4, 5]] = [[1, 3], [1, 4], [1, 5], [2, 3], [2, 4], [2, 5]] := rfl

namespace Value

/-- A text or a number: what can stand in a compound word. -/
def isWord : Value → Bool
  | text _ | number _ => true
  | _ => false

/-- As a word it is what it is displayed as. -/
theorem toWord_of_isWord {v : Value} (word : v.isWord = true) : v.toWord = .ok v.display := by
  cases v with
  | text | number => rfl
  | _ => exact nomatch word

theorem mapM_toWord {values : List Value} (words : ∀ v ∈ values, v.isWord = true) :
    values.mapM toWord = .ok (values.map display) := by
  induction values with
  | nil => rfl
  | cons v values ih =>
    obtain ⟨word, words⟩ := List.forall_mem_cons.mp words
    rw [List.mapM_cons, toWord_of_isWord word, ih words]
    rfl

/-- The element of a value at some keys, each of them a key of the element at the ones before. -/
def elementAt (path : Value × List Value) : Except Fault Value := path.2.foldlM index path.1

theorem elementAt_cons (v key : Value) (keys : List Value) :
    elementAt (v, key :: keys) = (v.index key).bind fun element => elementAt (element, keys) := List.foldlM_cons

end Value

/-! ## Compound words -/

/-- Each text so far goes on with each of the words; without texts there is nothing to go on with either way. -/
theorem appendEach_words (texts : List String) {values : List Value} (words : ∀ v ∈ values, v.isWord = true) :
    appendEach texts values = .ok (texts.flatMap fun t => values.map fun v => t ++ v.display) := by
  unfold appendEach
  split
  · next empty =>
    rw [List.isEmpty_iff.mp empty]
    rfl
  · rw [Value.mapM_toWord words]
    simp only [Except.map, List.map_map, Function.comp_def]

namespace Runner

variable {r : Runner} {f : Frame} {w w₁ w' : World}

/-- **The parts of a word, read onto the texts so far**: every text goes on with every choice of values. -/
theorem compoundOnto_choices {parts : List Expr} {lists : List (List Value)} (texts : List String)
    (run : (parts.mapM fun part => r.expr part f) w = (.ok lists, w'))
    (words : ∀ values ∈ lists, ∀ v ∈ values, v.isWord = true) :
    r.compoundOnto f texts parts w =
      (.ok (texts.flatMap fun t => (choices lists).map fun c => t ++ String.join (c.map Value.display)), w') := by
  induction parts generalizing texts lists w with
  | nil =>
    cases run
    simp [compoundOnto, choices]
    rfl
  | cons part parts ih =>
    rw [List.mapM_cons] at run
    obtain ⟨values, w₁, here, run⟩ := of_bind_run_ok run
    obtain ⟨others, w₂, later, run⟩ := of_bind_run_ok run
    cases run
    obtain ⟨word, words⟩ := List.forall_mem_cons.mp words
    rw [compoundOnto, bind_run_ok here, appendEach_words texts word, ofExcept_ok, pure_bind, ih _ later words]
    simp [choices, List.flatMap_assoc, List.map_flatMap, List.flatMap_map, Function.comp_def, String.append_assoc]

/-! ## Indexing -/

/-- The lookups of one value, at every key. -/
theorem lookups_row (site : Site) (head : Value) {keys : List Value}
    (found : ∀ key ∈ keys, ∃ v, head.index key = .ok v) :
    ∃ row : List Value, keys.map head.index = row.map .ok ∧
      ∀ w, (keys.mapM fun key => (Eval.ofExcept (head.index key)).located site) w = (.ok row, w) := by
  induction keys with
  | nil => exact ⟨[], rfl, fun _ => rfl⟩
  | cons key keys ih =>
    obtain ⟨⟨v, here⟩, found⟩ := List.forall_mem_cons.mp found
    obtain ⟨row, later, runs⟩ := ih found
    refine ⟨v :: row, by rw [List.map_cons, here, later, List.map_cons], fun w => ?_⟩
    have first : (Eval.ofExcept (head.index key)).located site w = (.ok v, w) := by
      rw [here]
      rfl
    rw [List.mapM_cons, bind_run_ok first, bind_run_ok (runs w)]
    rfl

/-- The lookups of all values, one row for each. -/
theorem lookups_rows (site : Site) {heads keys : List Value}
    (found : ∀ path ∈ heads ×ˢ keys, ∃ v, path.1.index path.2 = .ok v) :
    ∃ rows : List (List Value),
      (heads ×ˢ keys).map (fun path => path.1.index path.2) = rows.flatten.map .ok ∧
      ∀ w, (heads.mapM fun head => keys.mapM fun key => (Eval.ofExcept (head.index key)).located site) w =
        (.ok rows, w) := by
  induction heads with
  | nil => exact ⟨[], rfl, fun _ => rfl⟩
  | cons head heads ih =>
    rw [List.product_cons] at found ⊢
    obtain ⟨row, here, runs⟩ := lookups_row site head fun key mem =>
      found (head, key) (List.mem_append_left _ (List.mem_map_of_mem mem))
    obtain ⟨rows, later, runs'⟩ := ih fun path mem => found path (List.mem_append_right _ mem)
    refine ⟨row :: rows, ?_, fun w => ?_⟩
    · rw [List.map_append, List.map_map, later, List.flatten_cons, List.map_append, ← here]
      rfl
    · rw [List.mapM_cons, bind_run_ok (runs w), bind_run_ok (runs' w)]
      rfl

/-- **One pair of brackets**: the keys are evaluated, and every value is looked into at every key. -/
theorem indexAll_product {bracket : IndexBracket} {heads keys : List Value}
    (run : r.exprs f bracket.items w = (.ok keys, w'))
    (found : ∀ path ∈ heads ×ˢ keys, ∃ v, path.1.index path.2 = .ok v) :
    ∃ values, (heads ×ˢ keys).map (fun path => path.1.index path.2) = values.map .ok ∧
      r.indexAll f heads bracket w = (.ok values, w') := by
  obtain ⟨rows, here, runs⟩ := lookups_rows (f.site bracket.span) found
  refine ⟨rows.flatten, here, ?_⟩
  rw [indexAll, bind_run_ok run, bind_run_ok (runs w')]
  rfl

/-- The elements along a choice of keys are those that the elements at the first key have along the others. -/
theorem map_elementAt_cons {heads here elements : List Value}
    (looked : (heads ×ˢ here).map (fun path => path.1.index path.2) = elements.map .ok) (keys : List (List Value)) :
    (heads ×ˢ choices (here :: keys)).map Value.elementAt = (elements ×ˢ choices keys).map Value.elementAt := by
  -- what lies along the remaining keys, for the element at the first one
  let along (found : Except Fault Value) : List (Except Fault Value) :=
    (choices keys).map fun path => found.bind fun element => Value.elementAt (element, path)
  calc (heads ×ˢ choices (here :: keys)).map Value.elementAt
      = ((heads ×ˢ here).map fun path => path.1.index path.2).flatMap along := by
        simp [SProd.sprod, List.product, choices, along, List.map_flatMap, List.flatMap_map, List.flatMap_assoc,
          Function.comp_def, Value.elementAt_cons]
    _ = (elements.map .ok).flatMap along := by rw [looked]
    _ = (elements ×ˢ choices keys).map Value.elementAt := by
        simp [SProd.sprod, List.product, along, List.map_flatMap, List.flatMap_map, Function.comp_def, Except.bind]

/-- **The pairs of brackets from one on**: what is there is looked into along every choice of keys.  By induction
on the brackets; the elements that one of them finds are what the next one looks into. -/
theorem foldlM_indexAll_choices {brackets : List IndexBracket} {heads : List Value} {keys : List (List Value)}
    (run : (brackets.mapM fun b => r.exprs f b.items) w = (.ok keys, w'))
    (found : ∀ n, ∀ path ∈ heads ×ˢ choices (keys.take n), ∃ v, Value.elementAt path = .ok v) :
    ∃ values, (heads ×ˢ choices keys).map Value.elementAt = values.map .ok ∧
      brackets.foldlM (r.indexAll f) heads w = (.ok values, w') := by
  induction brackets generalizing heads keys w with
  | nil =>
    cases run
    refine ⟨heads, ?_, rfl⟩
    simp [SProd.sprod, List.product, choices, Value.elementAt, pure, Except.pure, ← List.map_eq_flatMap]
  | cons bracket brackets ih =>
    rw [List.mapM_cons] at run
    obtain ⟨here, w₁, run₁, run⟩ := of_bind_run_ok run
    obtain ⟨others, w₂, run₂, run⟩ := of_bind_run_ok run
    cases run
    obtain ⟨elements, looked, step⟩ := indexAll_product run₁ fun path mem => by
      obtain ⟨head, key⟩ := path
      obtain ⟨memHead, memKey⟩ := List.mem_product.mp mem
      have along : (head, [key]) ∈ heads ×ˢ choices [here] :=
        List.mem_product.mpr ⟨memHead, List.mem_flatMap.mpr ⟨key, memKey, List.mem_singleton.mpr rfl⟩⟩
      obtain ⟨v, look⟩ := found 1 _ along
      rw [Value.elementAt_cons] at look
      obtain ⟨element, here, -⟩ := Except.of_bind_ok look
      exact ⟨element, here⟩
    obtain ⟨values, rest, steps⟩ := ih run₂ fun n path (mem : path ∈ elements ×ˢ choices (others.take n)) => by
      have same := map_elementAt_cons looked (others.take n)
      obtain ⟨longer, mem', look⟩ := List.mem_map.mp (same ▸ List.mem_map_of_mem mem)
      rw [← look]
      exact found (n + 1) longer mem'
    refine ⟨values, (map_elementAt_cons looked others).trans rest, ?_⟩
    rw [List.foldlM_cons, bind_run_ok step, steps]

/-- **Words with several values are products.**  `r` is any way to evaluate what is inside, the evaluator itself or
one that counts.  A compound word whose parts, evaluated one after the other, have lists of texts and numbers for
values, has for each choice from these lists the text of all that is chosen, and it ends where the evaluation of
the parts ends.  An indexing has for each choice of a value and of a key of each pair of brackets the element that
the value has along the keys, if all the lookups on the way succeed; it ends where the brackets end, each of them
evaluated once after the values. -/
theorem evaluate_products (r : Runner) (f : Frame) (span : Span) :
    (∀ {parts : List Expr} {lists : List (List Value)} {w w' : World},
      (parts.mapM fun part => r.expr part f) w = (.ok lists, w') →
      (∀ values ∈ lists, ∀ v ∈ values, v.isWord = true) →
        r.evaluate (.compound parts span) f w =
          (.ok ((choices lists).map fun c => .text (String.join (c.map Value.display))), w')) ∧
    ∀ {head : Expr} {brackets : List IndexBracket} {heads : List Value} {keys : List (List Value)} {w w₁ w' : World},
      r.expr head f w = (.ok heads, w₁) →
      (brackets.mapM fun b => r.exprs f b.items) w₁ = (.ok keys, w') →
      (∀ n, ∀ path ∈ heads ×ˢ choices (keys.take n), ∃ v, Value.elementAt path = .ok v) →
        ∃ values, (heads ×ˢ choices keys).map Value.elementAt = values.map .ok ∧
          r.evaluate (.index head brackets span) f w = (.ok values, w') := by
  refine ⟨fun run words => located_run_ok ?_, fun first run found => ?_⟩
  · refine (bind_run_ok (compoundOnto_choices [""] run words)).trans ?_
    rw [List.flatMap_singleton, List.map_map]
    simp only [String.empty_append, Function.comp_def]
    rfl
  · obtain ⟨values, along, steps⟩ := foldlM_indexAll_choices run found
    exact ⟨values, along, located_run_ok ((bind_run_ok first).trans steps)⟩

/-- An evaluator that writes down where each expression stands that it is asked for. -/
def noting (fuel : Nat) : Runner :=
  { Runner.ofFuel fuel with
    expr := fun e f => do
      note (.loaded (toString e.span.start))
      (Runner.ofFuel fuel).expr e f }

/-- Texts in braces. -/
def bracedAt (start : Nat) (texts : List String) : Expr :=
  .sequence (texts.map fun t => .literal t ⟨start, start⟩) ⟨start, start⟩

/-- Two lists in braces. -/
def listsAt (start : Nat) (texts texts' : List String) : Expr :=
  .sequence [.list [bracedAt start texts] ⟨start, start⟩, .list [bracedAt start texts'] ⟨start, start⟩] ⟨start, start⟩

theorem elementAt_of_isOk {path : Value × List Value} (answers : (Value.elementAt path).isOk = true) :
    ∃ v, Value.elementAt path = .ok v := by
  cases here : Value.elementAt path with
  | ok v => exact ⟨v, rfl⟩
  | error _ =>
    rw [here] at answers
    exact nomatch answers

/-- In `{a b}{}{c}` the second part has no values, and the third one is still evaluated.  What `noting` writes down
last stands first. -/
theorem evaluate_products_noting :
    let w := World.start default default
    (noting 4).evaluate (.compound [bracedAt 0 ["a", "b"], bracedAt 5 ["1", "2"]] ⟨0, 10⟩) default w =
        (.ok [.text "a1", .text "a2", .text "b1", .text "b2"], { w with journal := [.loaded "5", .loaded "0"] }) ∧
      (noting 4).evaluate (.compound [bracedAt 0 ["a", "b"], bracedAt 5 [], bracedAt 7 ["c"]] ⟨0, 10⟩) default w =
        (.ok [], { w with journal := [.loaded "7", .loaded "5", .loaded "0"] }) ∧
      (noting 4).evaluate (.index (listsAt 0 ["p", "q"] ["s", "t"]) [⟨[bracedAt 6 ["1", "0"]], ⟨5, 10⟩⟩] ⟨0, 10⟩)
          default w =
        (.ok [.text "q", .text "p", .text "t", .text "s"], { w with journal := [.loaded "6", .loaded "0"] }) := by
  intro w
  have full : ([bracedAt 0 ["a", "b"], bracedAt 5 ["1", "2"]].mapM fun part => (noting 4).expr part default) w =
      (.ok [[.text "a", .text "b"], [.text "1", .text "2"]],
        { w with journal := [.loaded "5", .loaded "0"] }) := by rfl
  have empty : ([bracedAt 0 ["a", "b"], bracedAt 5 [], bracedAt 7 ["c"]].mapM fun part =>
      (noting 4).expr part default) w = (.ok [[.text "a", .text "b"], [], [.text "c"]],
        { w with journal := [.loaded "7", .loaded "5", .loaded "0"] }) := by rfl
  refine ⟨(evaluate_products (noting 4) default ⟨0, 10⟩).1 full (by decide),
    (evaluate_products (noting 4) default ⟨0, 10⟩).1 empty (by decide), ?_⟩
  let rows : List Value := [.list [.text "p", .text "q"], .list [.text "s", .text "t"]]
  let keys : List Value := [.text "1", .text "0"]
  have found (n : Nat) : ∀ path ∈ rows ×ˢ choices ([keys].take n), ∃ v, Value.elementAt path = .ok v := by
    have before : ∀ path ∈ rows ×ˢ choices [], (Value.elementAt path).isOk = true := by decide +kernel
    have after : ∀ path ∈ rows ×ˢ choices [keys], (Value.elementAt path).isOk = true := by decide +kernel
    cases n with
    | zero => exact fun path mem => elementAt_of_isOk (before path mem)
    | succ n =>
      rw [List.take_succ_cons, List.take_nil]
      exact fun path mem => elementAt_of_isOk (after path mem)
  have heads : (noting 4).expr (listsAt 0 ["p", "q"] ["s", "t"]) default w =
      (.ok rows, { w with journal := [.loaded "0"] }) := by rfl
  have brackets : ([(⟨[bracedAt 6 ["1", "0"]], ⟨5, 10⟩⟩ : IndexBracket)].mapM fun b =>
      (noting 4).exprs default b.items) { w with journal := [.loaded "0"] } =
        (.ok [keys], { w with journal := [.loaded "6", .loaded "0"] }) := by rfl
  obtain ⟨values, along, run⟩ := (evaluate_products (noting 4) default ⟨0, 10⟩).2 heads brackets found
  obtain rfl : values = [.text "q", .text "p", .text "t", .text "s"] :=
    (List.map_inj_right fun _ _ => Except.ok.inj).mp (along.symm.trans rfl)
  exact run

end Runner

end ValueShell
