/-
  How a reader got to its result.

  `Reading` follows readers forwards: from a text of known shape to what they find in it.  Here it is the
  other way round.  A reader has found something, and what it did on the way is taken apart:

    * a sequence stopped once in the middle (`run_bind_ok`);
    * a repetition went through rounds, each of which adds its part to the result (`repeated_ok`);
    * an attempt found something, or it was undone (`attempt_ok`).

  Between two cursors of a run lies a piece of the text: `c.Passes text c'`.
-/
import ValueShell.Syntax.Reader

namespace ValueShell

/-! ## Pieces of the text -/

/-- No character is empty. -/
theorem byteLength_eq_zero {cs : List Char} (h : byteLength cs = 0) : cs = [] := by
  cases cs with
  | nil => rfl
  | cons c cs =>
    have size : 0 < c.utf8Size := c.utf8Size_pos
    simp only [byteLength] at h
    omega

/-- A row of one character that takes one byte. -/
theorem byteLength_replicate {c : Char} (one : c.utf8Size = 1) (n : Nat) : byteLength (List.replicate n c) = n := by
  induction n with
  | zero => rfl
  | succ n ih => rw [List.replicate_succ, byteLength, one, ih, Nat.add_comm]

namespace Cursor

/-- **From one cursor to a later one**, past the given text. -/
structure Passes (c : Cursor) (text : List Char) (c' : Cursor) : Prop where
  rest : c.rest = text ++ c'.rest
  offset : c'.offset = c.offset + byteLength text

/-- From one cursor to a later one. -/
def Moves (c c' : Cursor) : Prop := ∃ text, c.Passes text c'

variable {c c' c'' : Cursor} {text text' : List Char}

/-- No text has been passed. -/
theorem Passes.refl (c : Cursor) : c.Passes [] c := ⟨rfl, rfl⟩

/-- Texts are passed one after the other. -/
theorem Passes.trans (first : c.Passes text c') (later : c'.Passes text' c'') :
    c.Passes (text ++ text') c'' := by
  refine ⟨?_, ?_⟩
  · rw [first.rest, later.rest, List.append_assoc]
  · rw [later.offset, first.offset, byteLength_append]
    omega

/-- Who passes nothing stays. -/
theorem Passes.eq_of_nil (h : c.Passes [] c') : c' = c := by
  obtain ⟨offset, rest⟩ := c
  obtain ⟨offset', rest'⟩ := c'
  have same : offset' = offset := h.offset
  have left : rest = rest' := h.rest
  rw [same, left]

theorem Passes.moves (h : c.Passes text c') : c.Moves c' := ⟨text, h⟩

theorem Moves.refl (c : Cursor) : c.Moves c := ⟨[], .refl c⟩

theorem Moves.trans (first : c.Moves c') (later : c'.Moves c'') : c.Moves c'' := by
  obtain ⟨text, h⟩ := first
  obtain ⟨text', h'⟩ := later
  exact ⟨text ++ text', h.trans h'⟩

/-- Cursors move forwards only. -/
theorem Moves.le (h : c.Moves c') : c.offset ≤ c'.offset := by
  obtain ⟨text, passes⟩ := h
  have := passes.offset
  omega

/-! ## Single moves -/

/-- Past a character that is there. -/
theorem passes_next {ch : Char} (h : c.rest.head? = some ch) : c.Passes [ch] c.next := by
  obtain ⟨offset, _ | ⟨first, rest⟩⟩ := c
  · exact nomatch h
  · obtain rfl : first = ch := Option.some.inj h
    exact ⟨rfl, rfl⟩

/-- To move past a run of letters passes them. -/
theorem passes_dropWhile (p : Char → Bool) (c : Cursor) :
    c.Passes (c.rest.takeWhile p) (c.dropWhile p) :=
  ⟨List.takeWhile_append_dropWhile.symm, rfl⟩

section Runs

variable {p : Char → Bool} {ch : Char} {offset : Nat} {rest : List Char}

theorem dropWhile_of_pos (h : p ch = true) :
    dropWhile p ⟨offset, ch :: rest⟩ = dropWhile p ⟨offset + ch.utf8Size, rest⟩ := by
  rw [dropWhile, dropWhile, List.takeWhile_cons, if_pos h, List.dropWhile_cons, if_pos h, byteLength,
    Nat.add_assoc]

theorem dropWhile_of_neg (h : p ch = false) : dropWhile p ⟨offset, ch :: rest⟩ = ⟨offset, ch :: rest⟩ := by
  rw [dropWhile, List.takeWhile_cons, List.dropWhile_cons, h]
  rfl

/-- After a run of letters comes one that is not of them. -/
theorem head_dropWhile (c : Cursor) (p : Char → Bool) : ∀ ch, (c.dropWhile p).rest.head? = some ch → p ch = false := by
  intro ch h
  have stopped := List.head?_dropWhile_not p c.rest
  change (List.dropWhile p c.rest).head? = some ch at h
  rw [h] at stopped
  simpa using stopped

end Runs

/-- Past separators and comments, however many. -/
theorem moves_skip (separator : Char → Bool) (commented : Bool) (offset : Nat) (cs : List Char) :
    Moves ⟨offset, cs⟩ (skip separator commented offset cs) := by
  induction cs generalizing commented offset with
  | nil =>
    cases commented <;> exact .refl _
  | cons ch cs ih =>
    have one : Passes ⟨offset, ch :: cs⟩ [ch] ⟨offset + ch.utf8Size, cs⟩ := ⟨rfl, rfl⟩
    cases commented with
    | true => exact one.moves.trans (ih _ _)
    | false =>
      rw [skip]
      split
      · exact one.moves.trans (ih _ _)
      · split
        · exact one.moves.trans (ih _ _)
        · exact .refl _

end Cursor

/-! ## Steps of a run -/

namespace TextReader

variable {ε α β : Type} {c c' : Cursor}

/-- A sequence that succeeds has come through its first part. -/
theorem run_bind_ok {x : TextReader ε α} {k : α → TextReader ε β} {b : β}
    (h : (x >>= k) c = .ok (b, c')) : ∃ a c₁, x c = .ok (a, c₁) ∧ k a c₁ = .ok (b, c') := by
  change (x c).bind (fun p => k p.1 p.2) = .ok (b, c') at h
  rcases hx : x c with e | ⟨a, c₁⟩
  · rw [hx] at h
    exact nomatch h
  · rw [hx] at h
    exact ⟨a, c₁, rfl, h⟩

/-- What follows a part that succeeds. -/
theorem run_bind {x : TextReader ε α} {k : α → TextReader ε β} {a : α} {c₁ : Cursor}
    (h : x c = .ok (a, c₁)) : (x >>= k) c = k a c₁ := by
  show (x c).bind _ = _
  rw [h]
  rfl

/-- What is returned is the result, at the same place. -/
theorem run_pure_ok {a b : α} (h : (pure a : TextReader ε α) c = .ok (b, c')) : a = b ∧ c = c' := by
  cases h
  exact ⟨rfl, rfl⟩

/-- What reads the cursor alone says what the next part is and where it starts. -/
theorem run_offset {k : Nat → TextReader ε α} {r : Except (ReadStop ε) (α × Cursor)}
    (h : (offset >>= k) c = r) : k c.offset c = r := h

/-- What was read after the next letter had been looked at. -/
theorem run_peek {k : Option Char → TextReader ε α} {r : Except (ReadStop ε) (α × Cursor)}
    (h : (peek? >>= k) c = r) : ∃ next, c.rest.head? = next ∧ k next c = r := ⟨_, rfl, h⟩

theorem run_second {k : Option Char → TextReader ε α} {r : Except (ReadStop ε) (α × Cursor)}
    (h : (second? >>= k) c = r) : ∃ next, c.rest.tail.head? = next ∧ k next c = r := ⟨_, rfl, h⟩

/-- What was read after a step. -/
theorem run_advance {k : Unit → TextReader ε α} {r : Except (ReadStop ε) (α × Cursor)}
    (h : (advance >>= k) c = r) : k () c.next = r := h

/-- A step that ends with an answer. -/
theorem advance_pure_ok {a b : α} (h : (advance >>= fun _ => (pure a : TextReader ε α)) c = .ok (b, c')) :
    a = b ∧ c.next = c' := run_pure_ok (run_advance h)

/-- What was read after a run of letters. -/
theorem run_munch {p : Char → Bool} {k : List Char → TextReader ε α}
    {r : Except (ReadStop ε) (α × Cursor)} (h : (munch p >>= k) c = r) :
    k (c.rest.takeWhile p) (c.dropWhile p) = r := h

/-- An attempt that found something is that run; one that found nothing has been undone. -/
theorem attempt_ok {x : TextReader ε (Option α)} {found : Option α}
    (h : attempt x c = .ok (found, c')) :
    (∃ a, found = some a ∧ x c = .ok (some a, c')) ∨ (found = none ∧ c' = c) := by
  unfold attempt at h
  split at h
  · next a after hx =>
    cases h
    exact .inl ⟨a, rfl, hx⟩
  · cases h
    exact .inr ⟨rfl, rfl⟩
  · cases h
    exact .inr ⟨rfl, rfl⟩
  · exact nomatch h

/-- **What one round adds** to a statement `P` about the items between two cursors. -/
def Adds (P : Cursor → List α → Cursor → Prop) (c c₁ : Cursor) : Round α → Prop
  | .stop => P c [] c₁
  | .last item => P c [item] c₁
  | .more item => ∀ later c₂, P c₁ later c₂ → P c (item :: later) c₂

/-- **A repetition that succeeds**: what every round adds to holds of all of them. -/
theorem repeated_ok {P : Cursor → List α → Cursor → Prop} {round : TextReader ε (Round α)}
    (one : ∀ c r c₁, round c = .ok (r, c₁) → Adds P c c₁ r) {limit : Nat} {items : List α}
    (h : repeated limit round c = .ok (items, c')) : P c items c' := by
  -- on the number of rounds left, with the items that are found already
  suffices ∀ limit found c, repeatedOnto round limit found c = .ok (items, c') →
      ∃ new, items = found.reverse ++ new ∧ P c new c' by
    obtain ⟨new, hnew, hp⟩ := this limit [] c h
    have same : items = new := hnew
    rw [same]
    exact hp
  intro limit
  induction limit with
  | zero =>
    intro found c h
    exact nomatch h
  | succ limit ih =>
    intro found c h
    obtain ⟨r, c₁, hround, h⟩ := run_bind_ok h
    have adds := one c r c₁ hround
    cases r with
    | stop =>
      cases h
      exact ⟨[], (List.append_nil _).symm, adds⟩
    | last item =>
      cases h
      exact ⟨[item], List.reverse_cons, adds⟩
    | more item =>
      obtain ⟨new, hnew, hp⟩ := ih (item :: found) c₁ h
      refine ⟨item :: new, ?_, adds new c' hp⟩
      rw [hnew, List.reverse_cons, List.append_assoc]
      rfl

end TextReader

/-! ## Runs of the parts of code -/

namespace Reader

open TextReader

variable {c c' : Cursor}

/-- What was read after a span had been taken. -/
theorem run_spanFrom {α : Type} {start : Nat} {k : Span → Reader α}
    {r : Except (ReadStop ParseError) (α × Cursor)} (h : (spanFrom start >>= k) c = r) :
    k ⟨start, c.offset⟩ c = r := h

/-- A node that ends with its span. -/
theorem spanFrom_pure_ok {α : Type} {a : α} {start : Nat} {node : Span → α}
    (h : (spanFrom start >>= fun s => (pure (node s) : Reader α)) c = .ok (a, c')) :
    node ⟨start, c.offset⟩ = a ∧ c = c' := run_pure_ok (run_spanFrom h)

/-- Blanks were skipped. -/
theorem run_skipBlank {α : Type} {k : PUnit → Reader α}
    {r : Except (ReadStop ParseError) (α × Cursor)} (h : (skipBlank >>= k) c = r) :
    ∃ c₁, c.Moves c₁ ∧ k ⟨⟩ c₁ = r := ⟨_, Cursor.moves_skip _ _ _ _, h⟩

/-- What was read after separators. -/
theorem run_skipSeparators {α : Type} {k : PUnit → Reader α}
    {r : Except (ReadStop ParseError) (α × Cursor)} (h : (skipSeparators >>= k) c = r) :
    ∃ c₁, c.Moves c₁ ∧ k ⟨⟩ c₁ = r := ⟨_, Cursor.moves_skip _ _ _ _, h⟩

theorem run_skipSpaces {α : Type} {k : PUnit → Reader α}
    {r : Except (ReadStop ParseError) (α × Cursor)} (h : (skipSpaces >>= k) c = r) :
    ∃ c₁, c.Moves c₁ ∧ k ⟨⟩ c₁ = r := ⟨_, (Cursor.passes_dropWhile _ _).moves, h⟩

/-- A comment was skipped, if there was one. -/
theorem run_skipComment {α : Type} {k : PUnit → Reader α}
    {r : Except (ReadStop ParseError) (α × Cursor)} (h : (skipComment >>= k) c = r) :
    ∃ c₁, c.Moves c₁ ∧ k ⟨⟩ c₁ = r := by
  unfold skipComment at h
  by_cases hash : (c.rest.head? == some '#') = true
  · refine ⟨_, (Cursor.passes_dropWhile (· != '\n') c).moves, ?_⟩
    rw [← h]
    change _ = ((if c.rest.head? == some '#' then modify (Cursor.dropWhile (· != '\n'))
      else pure ⟨⟩ : Reader PUnit) >>= k) c
    rw [if_pos hash]
    rfl
  · refine ⟨c, .refl c, ?_⟩
    rw [← h]
    change _ = ((if c.rest.head? == some '#' then modify (Cursor.dropWhile (· != '\n'))
      else pure ⟨⟩ : Reader PUnit) >>= k) c
    rw [if_neg hash]
    rfl

/-- What is not allowed is not read. -/
theorem unexpected_not_ok {α : Type} {r : α × Cursor} (h : unexpected c = .ok r) : False := by
  unfold unexpected at h
  obtain ⟨next, -, h⟩ := run_peek (run_offset h)
  split at h <;> exact nomatch h

/-- To see whether a form ends does not move. -/
theorem run_atFormEnd {α : Type} {k : Bool → Reader α} {r : Except (ReadStop ParseError) (α × Cursor)}
    (h : (atFormEnd >>= k) c = r) : ∃ ended, k ended c = r := by
  obtain ⟨offset, rest⟩ := c
  cases rest with
  | nil => exact ⟨_, h⟩
  | cons ch rest => exact ⟨_, h⟩

/-- A delimiter that was closed. -/
theorem closeWith_ok {closer : Char} {what : Construct} {start : Nat}
    (h : closeWith closer what start c = .ok ((), c')) :
    c.rest.head? = some closer ∧ c' = c.next := by
  change (if c.rest.head? == some closer then advance else _ : Reader Unit) c = _ at h
  split at h
  · next hc =>
    cases h
    exact ⟨eq_of_beq hc, rfl⟩
  · exact nomatch h

end Reader

end ValueShell
