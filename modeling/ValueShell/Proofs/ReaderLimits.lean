/-
  Limits that are not reached make no difference.

  Every repetition of a reader is bounded, and so is the nesting of brackets.  Who runs into a bound says
  so with `exhausted`, which no rule of the grammar takes for anything else: an attempt that is exhausted
  is not a failed attempt.  So with higher bounds a reader does the same, unless it was exhausted.

  The rules go through the grammar in its own order; `Extends` is closed under sequence, attempt and
  repetition, and that is all the grammar is made of.
-/
import ValueShell.Syntax.Grammar

namespace ValueShell

namespace TextReader

variable {ε α β : Type}

/-- **`y` does what `x` does**, but it may go on where `x` is exhausted. -/
def Extends (x y : TextReader ε α) : Prop := ∀ c, x c ≠ .error .exhausted → y c = x c

/-- A reader does what it does. -/
theorem Extends.refl (x : TextReader ε α) : Extends x x := fun _ _ => rfl

/-- What has been found is found with higher limits, too. -/
theorem Extends.of_ok {x y : TextReader ε α} (h : Extends x y) {c : Cursor} {r : α × Cursor}
    (hx : x c = .ok r) : y c = .ok r := by
  rw [h c (by rw [hx]; exact nofun), hx]

/-- **One reader after the other.** -/
theorem extends_bind {x y : TextReader ε α} {k l : α → TextReader ε β} (h : Extends x y)
    (next : ∀ a, Extends (k a) (l a)) : Extends (x >>= k) (y >>= l) := by
  intro c notExhausted
  change (x c).bind (fun p => k p.1 p.2) ≠ _ at notExhausted
  change (y c).bind (fun p => l p.1 p.2) = (x c).bind fun p => k p.1 p.2
  have first : y c = x c := by
    refine h c fun exhausted => notExhausted ?_
    rw [exhausted]
    rfl
  rw [first]
  rcases hx : x c with e | ⟨a, c'⟩
  · rfl
  · rw [hx] at notExhausted
    exact next a c' notExhausted

/-- What does not depend on limits comes first. -/
theorem extends_then {x : TextReader ε α} {k l : α → TextReader ε β}
    (next : ∀ a, Extends (k a) (l a)) : Extends (x >>= k) (x >>= l) := extends_bind (.refl x) next

/-- Both take the same branch. -/
theorem extends_ite {p : Prop} [Decidable p] {x x' y y' : TextReader ε α} (hx : Extends x x')
    (hy : Extends y y') : Extends (if p then x else y) (if p then x' else y') := by
  split
  · exact hx
  · exact hy

/-- An attempt passes exhaustion on, so that it makes no difference here. -/
theorem extends_attempt {x y : TextReader ε (Option α)} (h : Extends x y) :
    Extends (attempt x) (attempt y) := by
  intro c notExhausted
  have same : y c = x c := by
    refine h c fun exhausted => notExhausted ?_
    unfold attempt
    rw [exhausted]
  unfold attempt
  rw [same]

/-- Repetition, by induction on the lower limit. -/
theorem extends_repeatedOnto {limit limit' : Nat} (hl : limit ≤ limit')
    {round round' : TextReader ε (Round α)} (h : Extends round round') (items : List α) :
    Extends (repeatedOnto round limit items) (repeatedOnto round' limit' items) := by
  induction limit generalizing limit' items with
  | zero => exact fun c notExhausted => absurd rfl notExhausted
  | succ limit ih =>
    cases limit' with
    | zero => exact absurd hl (Nat.not_succ_le_zero limit)
    | succ limit' =>
      refine extends_bind h fun r => ?_
      cases r with
      | stop => exact .refl _
      | last item => exact .refl _
      | more item => exact ih (Nat.le_of_succ_le_succ hl) _

theorem extends_repeated {limit limit' : Nat} (hl : limit ≤ limit')
    {round round' : TextReader ε (Round α)} (h : Extends round round') :
    Extends (repeated limit round) (repeated limit' round') :=
  extends_repeatedOnto hl h []

end TextReader

namespace Reader

open TextReader

variable [Offsets] {limit limit' : Nat}

/-- A single-quoted text is a repetition. -/
theorem extends_singleQuoted (hl : limit ≤ limit') :
    Extends (singleQuoted limit) (singleQuoted limit') :=
  extends_then fun _ => extends_then fun _ =>
    extends_bind (extends_repeated hl (.refl _)) fun _ => .refl _

/-- So is a double-quoted one. -/
theorem extends_doubleQuoted (hl : limit ≤ limit') :
    Extends (doubleQuoted limit) (doubleQuoted limit') :=
  extends_then fun _ => extends_then fun _ =>
    extends_bind (extends_repeated hl (.refl _)) fun _ => .refl _

end Reader

namespace Grammar

open Reader TextReader

/-- What may stand inside a delimiter, with higher limits. -/
structure Inner.Extends (i i' : Inner) : Prop where
  chunk : ∀ closer, TextReader.Extends (i.chunk closer) (i'.chunk closer)
  compound : ∀ around, TextReader.Extends (i.compound around) (i'.compound around)

section

variable [Offsets] {limit limit' : Nat} (hl : limit ≤ limit') {i i' : Inner} (hi : i.Extends i')
include hi

/-- The body of a lambda is read by the inner readers. -/
theorem extends_lambdaBody : Extends (lambdaBody i) (lambdaBody i') :=
  extends_then fun _ => extends_then fun _ => extends_bind (hi.chunk _) fun _ => .refl _

include hl

/-- The words up to a closing delimiter. -/
theorem extends_items (closer : Char) (what : Construct) :
    Extends (items limit i closer what) (items limit' i' closer what) := by
  refine extends_then fun start => extends_repeated hl ?_
  refine extends_then fun _ => extends_then fun next => ?_
  cases next with
  | none => exact .refl _
  | some c =>
    dsimp only
    split
    · exact .refl _
    · exact extends_bind (hi.compound _) fun _ => .refl _

/-- The pairs of a map. -/
theorem extends_mapPairs (start : Nat) :
    Extends (mapPairs limit i start) (mapPairs limit' i' start) := by
  refine extends_repeated hl ?_
  refine extends_then fun _ => extends_then fun next => ?_
  split
  · exact .refl _
  · exact .refl _
  · refine extends_then fun pairStart => extends_then fun _ => extends_then fun after => ?_
    split
    · exact .refl _
    · refine extends_bind (hi.compound _) fun key => extends_then fun sign => ?_
      split
      · exact .refl _
      · exact extends_then fun _ => extends_bind (hi.compound _) fun _ => .refl _
  · exact .refl _

/-- A list or a map. -/
theorem extends_bracketed (start : Nat) :
    Extends (bracketed limit i start) (bracketed limit' i' start) := by
  refine extends_then fun _ => extends_then fun _ => extends_then fun next => ?_
  split
  · exact extends_bind (extends_mapPairs hl hi start) fun _ => .refl _
  · refine extends_bind (extends_items hl hi _ _) fun found => extends_then fun after => ?_
    split
    · exact extends_then fun _ => extends_bind (extends_lambdaBody hi) fun _ => .refl _
    · exact .refl _

theorem extends_bracedItems : Extends (bracedItems limit i) (bracedItems limit' i') := by
  refine extends_then fun start => extends_then fun _ => extends_repeated hl ?_
  exact extends_then fun _ => extends_bind (hi.compound _) fun _ => .refl _

/-- What a word starts with, case by case. -/
theorem extends_primary? (around : Surroundings) :
    Extends (primary? limit i around) (primary? limit' i' around) := by
  refine extends_then fun start => extends_then fun next => ?_
  split
  · exact .refl _
  · exact extends_bind (extends_singleQuoted hl) fun _ => .refl _
  · exact extends_bind (extends_doubleQuoted hl) fun _ => .refl _
  · exact .refl _
  · exact extends_then fun _ => extends_bind (hi.chunk _) fun _ => .refl _
  · exact extends_bind (extends_bracketed hl hi start) fun _ => .refl _
  · refine extends_then fun second => ?_
    split
    · exact extends_bind (extends_lambdaBody hi) fun _ => .refl _
    · exact extends_bind (extends_bracedItems hl hi) fun _ => .refl _
  · exact .refl _

theorem extends_bracket : Extends (bracket limit i) (bracket limit' i') :=
  extends_then fun _ => extends_then fun _ => extends_bind (extends_items hl hi _ _) fun _ => .refl _

/-- A primary with its indices. -/
theorem extends_indexing? (around : Surroundings) :
    Extends (indexing? limit i around) (indexing? limit' i' around) := by
  refine extends_then fun start => extends_bind (extends_primary? hl hi around) fun found => ?_
  cases found with
  | none => exact .refl _
  | some head =>
    refine extends_bind (extends_repeated hl (extends_then fun next => ?_)) fun _ => .refl _
    split
    · exact extends_bind (extends_bracket hl hi) fun _ => .refl _
    · exact .refl _

/-- A word. -/
theorem extends_compound (around : Surroundings) :
    Extends (compound limit i around) (compound limit' i' around) :=
  extends_then fun _ => extends_bind
    (extends_repeated hl (extends_bind (extends_indexing? hl hi around) fun _ => .refl _)) fun _ => .refl _

/-! ## Forms -/

/-- An assignment without spaces. -/
theorem extends_compactAssignment? :
    Extends (compactAssignment? limit i) (compactAssignment? limit' i') := by
  refine extends_then fun start => extends_then fun next => ?_
  cases next with
  | none => exact .refl _
  | some c =>
    refine extends_then fun second => ?_
    split
    · exact .refl _
    · refine extends_bind (extends_indexing? hl hi _) fun found => ?_
      cases found with
      | none => exact .refl _
      | some left =>
        refine extends_then fun sign => extends_ite (.refl _) ?_
        exact extends_then fun _ => extends_bind (extends_compound hl hi _) fun _ => .refl _

theorem extends_compactAssignments :
    Extends (compactAssignments limit i) (compactAssignments limit' i') := by
  refine extends_bind (extends_repeated hl ?_) fun _ => .refl _
  exact extends_bind (extends_attempt (extends_compactAssignment? hl hi)) fun _ => .refl _

/-- A command, or an assignment with a lone equals sign. -/
theorem extends_commandForm : Extends (commandForm limit i) (commandForm limit' i') := by
  refine extends_then fun start => extends_bind (extends_compound hl hi _) fun head => ?_
  split
  · exact .refl _
  · refine extends_bind (extends_repeated hl ?_) fun _ => .refl _
    refine extends_then fun _ => extends_then fun ended => ?_
    split
    · exact .refl _
    · exact extends_bind (extends_compound hl hi _) fun _ => .refl _

theorem extends_form : Extends (form limit i) (form limit' i') := by
  refine extends_then fun start => extends_bind (extends_compactAssignments hl hi) fun found => ?_
  cases found with
  | nil => exact extends_commandForm hl hi
  | cons => exact .refl _

theorem extends_pipeline : Extends (pipeline limit i) (pipeline limit' i') := by
  refine extends_then fun start => extends_bind (extends_form hl hi) fun first => ?_
  refine extends_bind (extends_repeated hl ?_) fun _ => .refl _
  refine extends_then fun _ => extends_then fun next => ?_
  split
  · exact extends_then fun _ => extends_then fun _ => extends_bind (extends_form hl hi) fun _ => .refl _
  · exact .refl _

/-- Code, up to its end. -/
theorem extends_chunk (closer : Option Char) :
    Extends (chunk limit i closer) (chunk limit' i' closer) := by
  refine extends_then fun start => extends_bind (extends_repeated hl ?_) fun _ => .refl _
  refine extends_then fun _ => extends_then fun next => ?_
  cases next with
  | none => exact .refl _
  | some c =>
    dsimp only
    split
    · exact .refl _
    · split
      · exact .refl _
      · exact extends_bind (extends_pipeline hl hi) fun _ => .refl _

end

/-! ## Whole texts -/

section

variable [Offsets] {limit limit' : Nat} (hl : limit ≤ limit')
include hl

/-- **Readers of deeper nestings**, by induction on the depth. -/
theorem extends_inner {depth depth' : Nat} (hd : depth ≤ depth') :
    (inner limit depth).Extends (inner limit' depth') := by
  induction depth generalizing depth' with
  | zero => exact ⟨fun _ _ h => absurd rfl h, fun _ _ h => absurd rfl h⟩
  | succ depth ih =>
    cases depth' with
    | zero => exact absurd hd (Nat.not_succ_le_zero depth)
    | succ depth' =>
      have deeper := ih (Nat.le_of_succ_le_succ hd)
      exact ⟨extends_chunk hl deeper, extends_compound hl deeper⟩

/-- **A higher limit reads the same**, where the lower one is not reached. -/
theorem extends_unit : Extends (unit limit) (unit limit') :=
  extends_bind (extends_chunk hl (extends_inner hl hl) none) fun _ => .refl _

end

end Grammar

end ValueShell
