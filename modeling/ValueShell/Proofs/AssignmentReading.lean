/-
  What starts like an assignment.

  The reader of forms tries `target=value` first.  If that fails it goes back to the start of the form, forgets
  the problem, and reads the same text again as a command.  In the second reading `=` is a character of words:
  what was the value is now the rest of the first word, and a bracket after `=` is an index and not a list.

  The two readings run in step nevertheless.  They meet behind `=` and the word characters after it, and go the
  same way from there: what was a list is read as an index by the same rounds.  So when the first word of the
  command is read, the value can be read too, and the attempt has not failed (`compound_after_sign`).

  They part in one case.  A list with a brace right after it is a lambda in a value, and an index followed by a
  braced list in a command; it can fail as the one and be read as the other.
-/
import ValueShell.Proofs.ErrorSpans

namespace ValueShell

open TextReader Reader Grammar

/-! ## Rounds -/

namespace TextReader

variable {ε α β : Type} {c c' : Cursor} {n limit : Nat}

/-- **`n` rounds of a repetition lead from one cursor to another**, the last of which does not ask for a
further one. -/
inductive Rounds (round : TextReader ε (Round α)) : Nat → Cursor → Cursor → Prop
  | stop {c c' : Cursor} (h : round c = .ok (.stop, c')) : Rounds round 1 c c'
  | last {c c' : Cursor} {item : α} (h : round c = .ok (.last item, c')) : Rounds round 1 c c'
  | more {c c₁ c' : Cursor} {item : α} {n : Nat} (h : round c = .ok (.more item, c₁))
      (later : Rounds round n c₁ c') : Rounds round (n + 1) c c'

/-- A repetition is a number of rounds within its limit. -/
theorem repeatedOnto_iff {round : TextReader ε (Round α)} {found : List α} :
    (∃ items, repeatedOnto round limit found c = .ok (items, c')) ↔
      ∃ n ≤ limit, Rounds round n c c' := by
  induction limit generalizing found c with
  | zero =>
    constructor
    · rintro ⟨items, h⟩
      exact nomatch h
    · rintro ⟨n, none, rounds⟩
      cases rounds <;> exact absurd none (Nat.not_succ_le_zero _)
  | succ limit ih =>
    constructor
    · rintro ⟨items, h⟩
      obtain ⟨r, c₁, first, h⟩ := run_bind_ok h
      cases r with
      | stop =>
        cases h
        exact ⟨1, Nat.succ_le_succ (Nat.zero_le _), .stop first⟩
      | last item =>
        cases h
        exact ⟨1, Nat.succ_le_succ (Nat.zero_le _), .last first⟩
      | more item =>
        obtain ⟨n, most, later⟩ := ih.mp ⟨items, h⟩
        exact ⟨n + 1, Nat.succ_le_succ most, .more first later⟩
    · rintro ⟨n, most, rounds⟩
      cases rounds with
      | stop first => exact ⟨_, run_bind first⟩
      | last first => exact ⟨_, run_bind first⟩
      | more first later =>
        obtain ⟨items, run⟩ := ih.mpr ⟨_, Nat.le_of_succ_le_succ most, later⟩
        exact ⟨items, (run_bind first).trans run⟩

/-- A repetition that succeeds has taken so many rounds. -/
theorem rounds_of_repeated {round : TextReader ε (Round α)} {items : List α}
    (h : repeated limit round c = .ok (items, c')) : ∃ n ≤ limit, Rounds round n c c' :=
  repeatedOnto_iff.mp ⟨items, h⟩

/-- And so many rounds are a repetition, within the limit. -/
theorem Rounds.repeated {round : TextReader ε (Round α)} (h : Rounds round n c c') (most : n ≤ limit) :
    ∃ items, TextReader.repeated limit round c = .ok (items, c') :=
  repeatedOnto_iff.mpr ⟨n, most, h⟩

/-- The items that are there already stay at the front. -/
theorem repeatedOnto_found {round : TextReader ε (Round α)} {found items : List α}
    (h : repeatedOnto round limit found c = .ok (items, c')) : ∃ more, items = found.reverse ++ more := by
  induction limit generalizing found c with
  | zero => exact nomatch h
  | succ limit ih =>
    obtain ⟨r, c₁, -, h⟩ := run_bind_ok h
    cases r with
    | stop =>
      cases h
      exact ⟨[], (List.append_nil _).symm⟩
    | last item =>
      cases h
      exact ⟨[item], List.reverse_cons⟩
    | more item =>
      obtain ⟨more, rfl⟩ := ih h
      exact ⟨item :: more, by rw [List.reverse_cons, List.append_assoc]; rfl⟩

/-- Rounds that differ in their problems alone lead the same way. -/
theorem Rounds.mono {round round' : TextReader ε (Round α)}
    (same : ∀ c r, round c = .ok r → round' c = .ok r) (h : Rounds round n c c') :
    Rounds round' n c c' := by
  induction h with
  | stop first => exact .stop (same _ _ first)
  | last first => exact .last (same _ _ first)
  | more first _ ih => exact .more (same _ _ first) ih

end TextReader

/-! ## Steps that look and steps that move -/

namespace TextReader

variable {ε α : Type} {c : Cursor} {r : Except (ReadStop ε) (α × Cursor)}

/-- How a reader goes on that starts with the offset. -/
theorem offset_then {k : Nat → TextReader ε α} (h : k c.offset c = r) : (offset >>= k) c = r := h

theorem peek_then {k : Option Char → TextReader ε α} (h : k c.rest.head? c = r) :
    (peek? >>= k) c = r := h

theorem second_then {k : Option Char → TextReader ε α} (h : k c.rest.tail.head? c = r) :
    (second? >>= k) c = r := h

theorem munch_then {p : Char → Bool} {k : List Char → TextReader ε α}
    (h : k (c.rest.takeWhile p) (c.dropWhile p) = r) : (munch p >>= k) c = r := h

theorem advance_then {k : Unit → TextReader ε α} (h : k () c.next = r) : (advance >>= k) c = r := h

end TextReader

theorem Reader.skipBlank_then {α : Type} {c : Cursor} {k : PUnit → Reader α}
    {r : Except (ReadStop ParseError) (α × Cursor)} (h : k ⟨⟩ c.pastBlank = r) :
    (skipBlank >>= k) c = r := h

/-! ## Blanks -/

/-- After blanks and comments there are no more of them. -/
theorem Cursor.skip_skip (separator : Char → Bool) (commented : Bool) (offset : Nat) (cs : List Char) :
    skip separator false (skip separator commented offset cs).offset
      (skip separator commented offset cs).rest = skip separator commented offset cs := by
  induction cs generalizing commented offset with
  | nil => cases commented <;> rfl
  | cons ch cs ih =>
    cases commented with
    | true => exact ih _ _
    | false =>
      rw [skip]
      split
      · exact ih _ _
      · next word =>
        split
        · exact ih _ _
        · next start =>
          show skip separator false offset (ch :: cs) = _
          rw [skip, if_neg word, if_neg start]

/-- After blanks there are no more blanks. -/
theorem Cursor.pastBlank_pastBlank (c : Cursor) : c.pastBlank.pastBlank = c.pastBlank :=
  Cursor.skip_skip _ _ _ _

/-! ## Runs of characters -/

namespace Cursor

variable {p q : Char → Bool}

/-- A run within a longer run. -/
theorem dropWhile_dropWhile (within : ∀ ch, p ch = true → q ch = true) (c : Cursor) :
    (c.dropWhile p).dropWhile q = c.dropWhile q := by
  obtain ⟨offset, rest⟩ := c
  induction rest generalizing offset with
  | nil => rfl
  | cons ch rest ih =>
    cases hp : p ch with
    | true => rw [dropWhile_of_pos hp, dropWhile_of_pos (within ch hp), ih]
    | false => rw [dropWhile_of_neg hp]

end Cursor

namespace Grammar

variable {limit n : Nat} {inner : Inner} {around : Surroundings} {c c₁ c' : Cursor}

/-! ## Words in rounds -/

/-- One round of reading the brackets of a word. -/
def bracketRound (limit : Nat) (inner : Inner) : Reader (Round Bracket) := do
  if (← peek?) == some '[' then return .more (← bracket limit inner) else return .stop

/-- One round of reading the words of a compound. -/
def wordRound (limit : Nat) (inner : Inner) (around : Surroundings) : Reader (Round Indexing) := do
  match ← indexing? limit inner around with
  | some found => return .more found
  | none => return .stop

/-- One round of reading the items of a bracket. -/
def itemRound (inner : Inner) (closer : Char) (what : Construct) (start : Nat) :
    Reader (Round Compound) := do
  skipBlank
  match ← peek? with
  | none => failFrom start (.unterminated what)
  | some c => do
    if c = closer then do
      advance
      return .stop
    else do
      let item ← inner.compound .plain
      if item.indexings.isEmpty then unexpected else return .more item

/-- An indexing is a primary and the brackets after it. -/
theorem indexing?_rounds {found : Indexing} (h : indexing? limit inner around c = .ok (some found, c')) :
    ∃ c₁, primary? limit inner around c = .ok (some found.head, c₁) ∧
      ∃ n ≤ limit, Rounds (bracketRound limit inner) n c₁ c' := by
  obtain ⟨head, c₁, read, h⟩ := run_bind_ok (run_offset h)
  cases head with
  | none => exact nomatch h
  | some head =>
    obtain ⟨brackets, c₂, rounds, h⟩ := run_bind_ok h
    obtain ⟨same, rfl⟩ := spanFrom_pure_ok h
    cases same
    exact ⟨c₁, read, rounds_of_repeated rounds⟩

/-- A primary and its brackets are an indexing. -/
theorem indexing?_of_rounds {head : Primary} (read : primary? limit inner around c = .ok (some head, c₁))
    (rounds : Rounds (bracketRound limit inner) n c₁ c') (most : n ≤ limit) :
    ∃ found, indexing? limit inner around c = .ok (some found, c') := by
  obtain ⟨brackets, run⟩ := rounds.repeated most
  refine ⟨⟨head, brackets, ⟨c.offset, c'.offset⟩⟩, ?_⟩
  exact offset_then ((run_bind read).trans (run_bind run))

/-- A word is read in rounds. -/
theorem compound_iff : (∃ found, compound limit inner around c = .ok (found, c')) ↔
    ∃ n ≤ limit, Rounds (wordRound limit inner around) n c c' := by
  constructor
  · rintro ⟨found, h⟩
    obtain ⟨words, c₁, run, h⟩ := run_bind_ok (run_offset h)
    obtain ⟨-, rfl⟩ := spanFrom_pure_ok h
    exact rounds_of_repeated run
  · rintro ⟨n, most, rounds⟩
    obtain ⟨words, run⟩ := rounds.repeated most
    exact ⟨⟨words, ⟨c.offset, c'.offset⟩⟩, offset_then (run_bind run)⟩

/-- Each part of a word takes one round. -/
theorem wordRound_some {found : Indexing} (h : indexing? limit inner around c = .ok (some found, c')) :
    wordRound limit inner around c = .ok (.more found, c') := run_bind h

/-- A compound begins with a word, or there is none. -/
theorem words_cases (h : Rounds (wordRound limit inner around) n c c') :
    indexing? limit inner around c = .ok (none, c') ∨
      ∃ found c₁ k, indexing? limit inner around c = .ok (some found, c₁) ∧ n = k + 1 ∧
        Rounds (wordRound limit inner around) k c₁ c' := by
  have first {r c₁} (h : wordRound limit inner around c = .ok (r, c₁)) :
      (indexing? limit inner around c = .ok (none, c₁) ∧ r = .stop) ∨
        ∃ found, indexing? limit inner around c = .ok (some found, c₁) ∧ r = .more found := by
    obtain ⟨found, c₂, read, h⟩ := run_bind_ok h
    cases found <;> cases h
    · exact .inl ⟨read, rfl⟩
    · exact .inr ⟨_, read, rfl⟩
  cases h with
  | stop h =>
    obtain ⟨read, -⟩ | ⟨_, _, same⟩ := first h
    · exact .inl read
    · exact nomatch same
  | last h =>
    obtain ⟨_, same⟩ | ⟨_, _, same⟩ := first h <;> exact nomatch same
  | more h later =>
    obtain ⟨_, same⟩ | ⟨found, read, -⟩ := first h
    · exact nomatch same
    · exact .inr ⟨found, _, _, read, rfl, later⟩

/-- A bareword starts with a letter of barewords. -/
theorem bareword?_some (o : Nat) {ch : Char} (rest : List Char) (h : isBarewordChar around ch = true) :
    ∃ text span, bareword? around ⟨o, ch :: rest⟩ =
      .ok (some (.bareword text span), Cursor.dropWhile (isBarewordChar around) ⟨o, ch :: rest⟩) := by
  refine ⟨String.ofList ((ch :: rest).takeWhile (isBarewordChar around)),
    ⟨o, (Cursor.dropWhile (isBarewordChar around) ⟨o, ch :: rest⟩).offset⟩, offset_then (munch_then ?_)⟩
  have some : ((ch :: rest).takeWhile (isBarewordChar around)).isEmpty = false := by
    rw [List.takeWhile_cons, if_pos h]
    rfl
  rw [if_neg (by rw [some]; exact Bool.false_ne_true)]
  rfl

theorem bareword?_none (o : Nat) {ch : Char} (rest : List Char) (h : isBarewordChar around ch = false) :
    bareword? around ⟨o, ch :: rest⟩ = .ok (none, ⟨o, ch :: rest⟩) := by
  refine offset_then (munch_then ?_)
  have none : ((ch :: rest).takeWhile (isBarewordChar around)).isEmpty = true := by
    rw [List.takeWhile_cons, h]
    rfl
  rw [if_pos none, Cursor.dropWhile_of_neg h]
  rfl

/-- A word begins with a bareword if it begins with a character of one. -/
theorem primary?_bareword (limit : Nat) (inner : Inner) (o : Nat) {ch : Char} (rest : List Char)
    (h : isBarewordChar around ch = true) :
    ∃ text span, primary? limit inner around ⟨o, ch :: rest⟩ =
      .ok (some (.bareword text span), Cursor.dropWhile (isBarewordChar around) ⟨o, ch :: rest⟩) := by
  obtain ⟨text, span, word⟩ := bareword?_some o rest h
  refine ⟨text, span, offset_then (peek_then ((congrFun ?_ _).trans word))⟩
  -- a character of barewords opens no other primary
  have opens {d : Char} (same : (ch :: rest).head? = some d) : isBarewordChar around d = true :=
    Option.some.inj same ▸ h
  have never {d : Char} (same : (ch :: rest).head? = some d)
      (special : d ∈ ['\'', '"', '$', '(', '[', '{']) : False := by
    have := opens same
    simp only [List.mem_cons, List.not_mem_nil, or_false] at special
    rcases special with rfl | rfl | rfl | rfl | rfl | rfl <;>
      simp [isBarewordChar, barewordSigns, isAlphanumeric_ascii] at this
  split
  · next same => exact nomatch same
  all_goals first
    | exact (never ‹_› (by decide)).elim
    | rfl

/-- A bareword at the start of a compound, then its brackets, then the other words. -/
theorem words_after_bareword {o : Nat} {ch : Char} {rest : List Char} (h : isBarewordChar around ch = true)
    (rounds : Rounds (wordRound limit inner around) n ⟨o, ch :: rest⟩ c') :
    ∃ j k c₁, j ≤ limit ∧ n = k + 1 ∧
      Rounds (bracketRound limit inner) j (Cursor.dropWhile (isBarewordChar around) ⟨o, ch :: rest⟩) c₁ ∧
      Rounds (wordRound limit inner around) k c₁ c' := by
  obtain ⟨text, span, bareword⟩ := primary?_bareword limit inner o rest h
  obtain none | ⟨found, c₁, k, word, count, later⟩ := words_cases rounds
  · obtain ⟨head, c₂, read, none⟩ := run_bind_ok (run_offset none)
    rw [bareword] at read
    cases read
    obtain ⟨_, _, -, none⟩ := run_bind_ok none
    obtain ⟨_, _, -, none⟩ := run_bind_ok none
    exact nomatch none
  · obtain ⟨c₂, read, j, most, brackets⟩ := indexing?_rounds word
    obtain rfl := congrArg Prod.snd (Except.ok.inj (bareword.symm.trans read))
    exact ⟨j, k, c₁, most, count, brackets, later⟩

/-- Brackets go on as long as there is one. -/
theorem brackets_cases (h : Rounds (bracketRound limit inner) n c c') :
    (c.rest.head? ≠ some '[' ∧ c' = c) ∨
      ∃ found c₁ k, c.rest.head? = some '[' ∧ bracket limit inner c = .ok (found, c₁) ∧ n = k + 1 ∧
        Rounds (bracketRound limit inner) k c₁ c' := by
  have first {r c₁} (h : bracketRound limit inner c = .ok (r, c₁)) :
      (c.rest.head? ≠ some '[' ∧ r = .stop ∧ c₁ = c) ∨
        ∃ found, c.rest.head? = some '[' ∧ bracket limit inner c = .ok (found, c₁) ∧ r = .more found := by
    change (if c.rest.head? == some '[' then _ else pure .stop : Reader (Round Bracket)) c = _ at h
    split at h
    · next opened =>
      obtain ⟨found, c₂, read, h⟩ := run_bind_ok h
      cases h
      exact .inr ⟨found, eq_of_beq opened, read, rfl⟩
    · next other =>
      cases h
      exact .inl ⟨fun opened => other (beq_iff_eq.mpr opened), rfl, rfl⟩
  cases h with
  | stop h =>
    obtain ⟨other, -, same⟩ | ⟨_, _, _, same⟩ := first h
    · exact .inl ⟨other, same⟩
    · exact nomatch same
  | last h => obtain ⟨_, same, _⟩ | ⟨_, _, _, same⟩ := first h <;> exact nomatch same
  | more h later =>
    obtain ⟨_, same, _⟩ | ⟨found, opened, read, -⟩ := first h
    · exact nomatch same
    · exact .inr ⟨found, _, _, opened, read, rfl, later⟩

/-! ## A list as an index -/

/-- A list of words with a brace right after it, as at the start of a lambda. -/
def OpensLambda (offsets : Offsets) (limit : Nat) (inner : Inner) (c : Cursor) : Prop :=
  c.rest.head? = some '[' ∧ ∃ words c', items limit inner ']' .list c.next.pastBlank = .ok (words, c') ∧
    c'.rest.head? = some '{'

/-- Items are read by the same rounds in every construct, and after blanks as before them. -/
theorem itemRound_ok {closer : Char} {what what' : Construct} {start start' : Nat} {r : Round Compound × Cursor}
    (h : itemRound inner closer what start c = .ok r) :
    itemRound inner closer what' start' c = .ok r ∧
      itemRound inner closer what' start' c.pastBlank = .ok r := by
  have same : itemRound inner closer what' start' c = .ok r := by
    refine skipBlank_then (peek_then ?_)
    change (match c.pastBlank.rest.head? with
      | none => failFrom start (.unterminated what)
      | some ch => _ : Reader (Round Compound)) c.pastBlank = _ at h
    cases next : c.pastBlank.rest.head? with
    | none =>
      rw [next] at h
      exact nomatch h
    | some ch =>
      rw [next] at h
      exact h
  refine ⟨same, ?_⟩
  rw [← same]
  show (itemRound inner closer what' start' c.pastBlank) = _
  unfold itemRound
  refine skipBlank_then ?_
  rw [Cursor.pastBlank_pastBlank]
  rfl

/-- What is read as an index is read as the items of a list. -/
theorem items_of_index {found : List Compound} (h : items limit inner ']' .index c = .ok (found, c')) :
    ∃ words, items limit inner ']' .list c.pastBlank = .ok (words, c') := by
  have run : repeated limit (itemRound inner ']' .index (c.offset - 1)) c = .ok (found, c') := run_offset h
  obtain ⟨n, most, rounds⟩ := rounds_of_repeated run
  have again : Rounds (itemRound inner ']' .list (c.pastBlank.offset - 1)) n c.pastBlank c' := by
    cases rounds with
    | stop first => exact .stop (itemRound_ok first).2
    | last first => exact .last (itemRound_ok first).2
    | more first later => exact .more (itemRound_ok first).2 (later.mono fun _ _ h => (itemRound_ok h).1)
  obtain ⟨words, run⟩ := again.repeated most
  exact ⟨words, offset_then run⟩

/-- No compound begins with the sign of a pair. -/
theorem compound_ampersand (depth : Nat) {found : Compound} (hc : c.rest.head? = some '&')
    (h : (Grammar.inner limit depth).compound around c = .ok (found, c')) :
    found.indexings = [] ∧ c' = c := by
  cases depth with
  | zero => exact nomatch h
  | succ depth =>
    obtain ⟨o, rest⟩ := c
    obtain ⟨rest, rfl⟩ : ∃ after, rest = '&' :: after := ⟨_, (Cursor.passes_next hc).rest⟩
    have sign : isBarewordChar around '&' = false := by
      simp [isBarewordChar, barewordSigns, isAlphanumeric_ascii]
    have nothing : primary? limit (Grammar.inner limit depth) around ⟨o, '&' :: rest⟩ =
        .ok (none, ⟨o, '&' :: rest⟩) := bareword?_none o rest sign
    have none : indexing? limit (Grammar.inner limit depth) around ⟨o, '&' :: rest⟩ =
        .ok (none, ⟨o, '&' :: rest⟩) := offset_then (run_bind nothing)
    cases limit with
    | zero => exact nomatch h
    | succ limit =>
      change compound (limit + 1) (Grammar.inner (limit + 1) depth) around _ = _ at h
      have whole : compound (limit + 1) (Grammar.inner (limit + 1) depth) around ⟨o, '&' :: rest⟩ =
          .ok (⟨[], ⟨o, o⟩⟩, ⟨o, '&' :: rest⟩) := by
        have stop : wordRound (limit + 1) (Grammar.inner (limit + 1) depth) around ⟨o, '&' :: rest⟩ =
            .ok (.stop, ⟨o, '&' :: rest⟩) := run_bind none
        have words : repeated (limit + 1) (wordRound (limit + 1) (Grammar.inner (limit + 1) depth) around)
            ⟨o, '&' :: rest⟩ = .ok ([], ⟨o, '&' :: rest⟩) := run_bind stop
        exact offset_then (run_bind words)
      rw [whole] at h
      cases h
      exact ⟨rfl, rfl⟩

/-- And a bracket holds such items. -/
theorem bracket_items {found : Bracket} (h : bracket limit inner c = .ok (found, c')) :
    ∃ indices, items limit inner ']' .index c.next = .ok (indices, c') := by
  obtain ⟨indices, c₁, read, h⟩ := run_bind_ok (run_advance (run_offset h))
  obtain ⟨-, rfl⟩ := spanFrom_pure_ok h
  exact ⟨indices, read⟩

/-- No list of items begins with the sign of a pair. -/
theorem items_ampersand {depth : Nat} {what : Construct} {found : List Compound}
    (read : items limit (Grammar.inner limit depth) ']' what c = .ok (found, c')) :
    c.rest.head? ≠ some '&' := by
  intro sign
  obtain ⟨o, rest⟩ := c
  obtain ⟨rest, rfl⟩ : ∃ after, rest = '&' :: after := ⟨_, (Cursor.passes_next sign).rest⟩
  have run : repeated limit (itemRound (Grammar.inner limit depth) ']' what (o - 1)) ⟨o, '&' :: rest⟩ =
      .ok (found, c') := run_offset read
  obtain ⟨n, -, rounds⟩ := rounds_of_repeated run
  have never (r) : itemRound (Grammar.inner limit depth) ']' what (o - 1) ⟨o, '&' :: rest⟩ ≠ .ok r := by
    intro h
    obtain ⟨item, c₁, read, h⟩ := run_bind_ok (show
      ((Grammar.inner limit depth).compound .plain >>= fun item =>
        (if item.indexings.isEmpty then unexpected else return .more item : Reader (Round Compound)))
        ⟨o, '&' :: rest⟩ = .ok r from h)
    obtain ⟨empty, -⟩ := compound_ampersand depth rfl read
    rw [empty] at h
    exact unexpected_not_ok h
  cases rounds with
  | stop first | last first => exact never _ first
  | more first _ => exact never _ first

/-- **A bracket that is read as an index can be read as a list**, unless it opens a lambda. -/
theorem primary?_of_bracket {depth : Nat} {found : Bracket} (around : Surroundings) (hc : c.rest.head? = some '[')
    (read : bracket limit (Grammar.inner limit depth) c = .ok (found, c'))
    (list : ¬ OpensLambda .unbounded limit (Grammar.inner limit depth) c) :
    ∃ head, primary? limit (Grammar.inner limit depth) around c = .ok (some head, c') := by
  obtain ⟨indices, read⟩ := bracket_items read
  obtain ⟨words, again⟩ := items_of_index read
  have noMap := items_ampersand again
  have noBody : c'.rest.head? ≠ some '{' := fun brace => list ⟨hc, words, c', again, brace⟩
  obtain ⟨o, rest⟩ := c
  obtain ⟨rest, rfl⟩ : ∃ after, rest = '[' :: after := ⟨_, (Cursor.passes_next hc).rest⟩
  refine ⟨.list words ⟨o, c'.offset⟩, ?_⟩
  have list : bracketed limit (Grammar.inner limit depth) o ⟨o, '[' :: rest⟩ =
      .ok (.list words ⟨o, c'.offset⟩, c') := by
    refine advance_then (skipBlank_then (peek_then ?_))
    rw [if_neg (by simpa using noMap)]
    refine (run_bind again).trans (peek_then ?_)
    rw [if_neg (by simpa using noBody)]
    rfl
  rw [primary?_bracket]
  exact run_bind list

/-! ## Behind the sign -/

/-- **What comes after `=` in the first word of a command reads as a value**: brackets after the characters of
barewords, if there are such, and other words after those.  Without any such characters the first bracket is
a list. -/
theorem compound_after_sign {depth j k : Nat} {d : Cursor} (list : ¬ OpensLambda .unbounded limit (Grammar.inner limit depth) c)
    (brackets : Rounds (bracketRound limit (Grammar.inner limit depth)) j
      (c.dropWhile (isBarewordChar .plain)) d) (most : j ≤ limit)
    (words : Rounds (wordRound limit (Grammar.inner limit depth) .plain) k d c') (room : k < limit) :
    ∃ right, compound limit (Grammar.inner limit depth) .plain c = .ok (right, c') := by
  -- a first word that is read, then the others
  have one {c₁ : Cursor} {head : Primary} {j : Nat}
      (read : primary? limit (Grammar.inner limit depth) .plain c = .ok (some head, c₁))
      (rounds : Rounds (bracketRound limit (Grammar.inner limit depth)) j c₁ d) (most : j ≤ limit) :
      ∃ right, compound limit (Grammar.inner limit depth) .plain c = .ok (right, c') := by
    obtain ⟨found, word⟩ := indexing?_of_rounds read rounds most
    exact compound_iff.mpr ⟨k + 1, room, .more (wordRound_some word) words⟩
  obtain ⟨o, rest⟩ := c
  cases rest with
  | nil =>
    obtain ⟨-, rfl⟩ | ⟨_, _, _, opened, -⟩ := brackets_cases brackets
    · exact compound_iff.mpr ⟨k, Nat.le_of_lt room, words⟩
    · exact nomatch opened
  | cons ch rest =>
    cases plain : isBarewordChar .plain ch with
    | true =>
      obtain ⟨text, span, read⟩ := primary?_bareword limit (Grammar.inner limit depth) o rest plain
      exact one read brackets most
    | false =>
      rw [Cursor.dropWhile_of_neg plain] at brackets
      obtain ⟨-, rfl⟩ | ⟨found, c₁, j, opened, read, rfl, later⟩ := brackets_cases brackets
      · exact compound_iff.mpr ⟨k, Nat.le_of_lt room, words⟩
      · obtain ⟨head, read⟩ := primary?_of_bracket .plain opened read list
        exact one read later (Nat.le_of_succ_le most)

/-- What belongs to the bareword of a target belongs to any bareword. -/
theorem plain_of_target {ch : Char} (h : isBarewordChar .target ch = true) :
    isBarewordChar .plain ch = true := by
  unfold isBarewordChar at h ⊢
  by_cases sign : ch = '='
  · rw [if_pos sign] at h
    exact nomatch h
  · rw [if_neg sign] at h ⊢
    exact h

/-- What stops a target and is not the sign, stops every word. -/
theorem not_plain_of_stop {ch : Char} (h : isBarewordChar .target ch = false) (other : ch ≠ '=') :
    isBarewordChar .plain ch = false := by
  unfold isBarewordChar at h ⊢
  rw [if_neg other] at h ⊢
  exact h

/-- A target that does not stop at the sign stops where a word does. -/
theorem dropWhile_of_target {c : Cursor}
    (other : (c.dropWhile (isBarewordChar .target)).rest.head? ≠ some '=') :
    (c.dropWhile (isBarewordChar .target)).dropWhile (isBarewordChar .plain) =
      c.dropWhile (isBarewordChar .target) := by
  have stopped := c.head_dropWhile (isBarewordChar .target)
  generalize c.dropWhile (isBarewordChar .target) = d at other stopped ⊢
  obtain ⟨o, rest⟩ := d
  cases rest with
  | nil => rfl
  | cons ch rest =>
    have unlike : ch ≠ '=' := fun same => other (congrArg some same)
    exact Cursor.dropWhile_of_neg (not_plain_of_stop (stopped ch rfl) unlike)

/-- The sign and the characters of barewords after it. -/
theorem dropWhile_sign (hc : c.rest.head? = some '=') :
    c.dropWhile (isBarewordChar .plain) = c.next.dropWhile (isBarewordChar .plain) := by
  obtain ⟨o, rest⟩ := c
  obtain ⟨rest, rfl⟩ : ∃ after, rest = '=' :: after := ⟨_, (Cursor.passes_next hc).rest⟩
  exact Cursor.dropWhile_of_pos rfl

end Grammar

/-- Whether a word with this head can be assigned to. -/
def Primary.isTargetHead : Primary → Bool
  | bareword .. | braced .. => true
  | _ => false

namespace Grammar

variable {limit n : Nat} {inner : Inner} {around : Surroundings} {c c₁ c' : Cursor}

/-- What starts with a bracket is no target. -/
theorem bracketed_no_target {start : Nat} {head : Primary}
    (read : bracketed limit inner start c = .ok (head, c')) (target : head.isTargetHead = true) : False := by
  obtain ⟨_, -, h⟩ := run_skipBlank (run_advance read)
  obtain ⟨next, -, h⟩ := run_peek h
  split at h
  · obtain ⟨pairs, _, -, h⟩ := run_bind_ok h
    obtain ⟨rfl, -⟩ := spanFrom_pure_ok h
    exact nomatch target
  · obtain ⟨words, _, -, h⟩ := run_bind_ok h
    obtain ⟨next, -, h⟩ := run_peek h
    split at h
    · obtain ⟨names, _, -, h⟩ := run_bind_ok h
      obtain ⟨body, _, -, h⟩ := run_bind_ok h
      obtain ⟨rfl, -⟩ := spanFrom_pure_ok h
      exact nomatch target
    · obtain ⟨rfl, -⟩ := spanFrom_pure_ok h
      exact nomatch target

/-- The head of a target is a bareword or a braced list, and shows by its first character which one. -/
theorem primary?_target {o : Nat} {ch : Char} {rest : List Char} {head : Primary}
    (read : primary? limit inner around ⟨o, ch :: rest⟩ = .ok (some head, c')) (target : head.isTargetHead = true) :
    (isBarewordChar around ch = true ∧ c' = Cursor.dropWhile (isBarewordChar around) ⟨o, ch :: rest⟩) ∨
      (ch = '{' ∧ rest.head?.any isSpaceOrNewline = false) := by
  cases plain : isBarewordChar around ch with
  | true =>
    obtain ⟨text, span, word⟩ := primary?_bareword limit inner o rest plain
    exact .inl ⟨rfl, (congrArg Prod.snd (Except.ok.inj (word.symm.trans read))).symm⟩
  | false =>
    right
    obtain ⟨next, hnext, h⟩ := run_peek (run_offset read)
    split at h
    · exact nomatch h
    · obtain ⟨_, _, -, h⟩ := run_bind_ok h
      obtain ⟨same, -⟩ := spanFrom_pure_ok h
      cases same
      exact nomatch target
    · obtain ⟨_, _, -, h⟩ := run_bind_ok h
      obtain ⟨same, -⟩ := spanFrom_pure_ok h
      cases same
      exact nomatch target
    · obtain ⟨_, _, -, h⟩ := run_bind_ok h
      obtain ⟨same, -⟩ := spanFrom_pure_ok h
      cases same
      exact nomatch target
    · obtain ⟨_, _, -, h⟩ := run_bind_ok (run_advance h)
      obtain ⟨_, _, -, h⟩ := run_bind_ok h
      obtain ⟨same, -⟩ := spanFrom_pure_ok h
      cases same
      exact nomatch target
    · obtain ⟨_, _, read, h⟩ := run_bind_ok h
      cases h
      exact (bracketed_no_target read target).elim
    · obtain ⟨second, hsecond, h⟩ := run_second h
      obtain rfl : rest.head? = second := hsecond
      split at h
      · obtain ⟨_, _, -, h⟩ := run_bind_ok h
        obtain ⟨same, -⟩ := spanFrom_pure_ok h
        cases same
        exact nomatch target
      · next apart => exact ⟨Option.some.inj hnext, Bool.not_eq_true _ ▸ apart⟩
    · obtain rfl : _ = ch := (Option.some.inj hnext).symm
      have none := bareword?_none o rest plain
      rw [none] at h
      exact nomatch h

/-! ## The two readings of a form -/

/-- **A word that is an assignment target, with `=` right after it.** -/
structure StartsAssignment (offsets : Offsets) (limit : Nat) (inner : Inner) (c : Cursor) (left : Indexing)
    (c₁ : Cursor) : Prop where
  read : indexing? limit inner .target c = .ok (some left, c₁)
  target : left.head.isTargetHead = true
  sign : c₁.rest.head? = some '='

/-- There is something at the start of an assignment. -/
theorem StartsAssignment.starts {left : Indexing} (h : StartsAssignment .unbounded limit inner c left c₁) :
    ∃ o ch rest, c = ⟨o, ch :: rest⟩ ∧
      ((isBarewordChar .target ch = true ∧
          ∃ n, Rounds (bracketRound limit inner) n (c.dropWhile (isBarewordChar .target)) c₁ ∧ n ≤ limit) ∨
        (ch = '{' ∧ rest.head?.any isSpaceOrNewline = false)) := by
  obtain ⟨c₂, read, n, most, rounds⟩ := indexing?_rounds h.read
  obtain ⟨o, rest⟩ := c
  cases rest with
  | nil => exact nomatch read
  | cons ch rest =>
    refine ⟨o, ch, rest, rfl, ?_⟩
    obtain ⟨plain, rfl⟩ | braced := primary?_target read h.target
    · exact .inl ⟨plain, n, rounds, most⟩
    · exact .inr braced

/-- The first word of the command, up to where the value starts: what is behind `=` and the characters of
barewords after it is read by the rest of the word and by the other words. -/
theorem words_after_sign {left : Indexing} (h : StartsAssignment .unbounded limit inner c left c₁)
    (head : Rounds (wordRound limit inner .plain) n c c') :
    ∃ j k d, j ≤ limit ∧ k < n ∧
      Rounds (bracketRound limit inner) j (c₁.next.dropWhile (isBarewordChar .plain)) d ∧
      Rounds (wordRound limit inner .plain) k d c' := by
  -- if the target is a word of the command, too, the sign starts the next word
  have apart {found : Indexing} (word : indexing? limit inner .plain c = .ok (some found, c₁)) :
      ∃ j k d, j ≤ limit ∧ k < n ∧
        Rounds (bracketRound limit inner) j (c₁.next.dropWhile (isBarewordChar .plain)) d ∧
        Rounds (wordRound limit inner .plain) k d c' := by
    obtain none | ⟨found', c₂, k, word', rfl, later⟩ := words_cases head
    · rw [word] at none
      exact nomatch none
    · rw [word] at word'
      cases word'
      rw [← dropWhile_sign h.sign]
      have sign := h.sign
      obtain ⟨o, rest⟩ := c₁
      obtain ⟨rest, rfl⟩ : ∃ after, rest = '=' :: after := ⟨_, (Cursor.passes_next sign).rest⟩
      obtain ⟨j, k, d, most, rfl, brackets, words⟩ := words_after_bareword rfl later
      exact ⟨j, k, d, most, by omega, brackets, words⟩
  obtain ⟨o, ch, rest, rfl, ⟨word, m, rounds, most⟩ | ⟨rfl, listed⟩⟩ := h.starts
  · have plain := plain_of_target word
    have run : (Cursor.dropWhile (isBarewordChar .target) ⟨o, ch :: rest⟩).dropWhile (isBarewordChar .plain) =
        Cursor.dropWhile (isBarewordChar .plain) ⟨o, ch :: rest⟩ :=
      Cursor.dropWhile_dropWhile (fun _ => plain_of_target) _
    by_cases sign : (Cursor.dropWhile (isBarewordChar .target) ⟨o, ch :: rest⟩).rest.head? = some '='
    · -- the target has no brackets, and the sign belongs to the bareword
      obtain ⟨-, rfl⟩ | ⟨_, _, _, opened, -⟩ := brackets_cases rounds
      · rw [← dropWhile_sign sign, run]
        obtain ⟨j, k, d, most, rfl, brackets, words⟩ := words_after_bareword plain head
        exact ⟨j, k, d, most, Nat.lt_succ_self k, brackets, words⟩
      · rw [opened] at sign
        exact nomatch sign
    · -- the bareword ends where the target does
      have stops : Cursor.dropWhile (isBarewordChar .plain) ⟨o, ch :: rest⟩ =
          Cursor.dropWhile (isBarewordChar .target) ⟨o, ch :: rest⟩ := by
        rw [← run]
        exact dropWhile_of_target sign
      obtain ⟨text, span, read⟩ := primary?_bareword limit inner o rest plain
      rw [stops] at read
      obtain ⟨found, whole⟩ := indexing?_of_rounds read rounds most
      exact apart whole
  · have same : primary? limit inner .plain ⟨o, '{' :: rest⟩ = primary? limit inner .target ⟨o, '{' :: rest⟩ :=
      primary?_brace.trans primary?_brace.symm
    obtain ⟨c₂, read, m, most, rounds⟩ := indexing?_rounds h.read
    obtain ⟨found, whole⟩ := indexing?_of_rounds (same.trans read) rounds most
    exact apart whole

/-- What starts an assignment is not ruled out by its first two letters. -/
theorem startsNoTarget_of_starts {o : Nat} {ch : Char} {rest : List Char} {left : Indexing}
    (h : StartsAssignment .unbounded limit inner ⟨o, ch :: rest⟩ left c₁) : startsNoTarget ch rest.head? = false := by
  obtain ⟨_, _, _, same, ⟨word, -⟩ | ⟨rfl, listed⟩⟩ := h.starts
  · cases same
    have unlike {d : Char} (special : d ∈ ['[', '(', '$', '\'', '"', '{']) : (ch == d) = false := by
      rw [beq_eq_false_iff_ne]
      rintro rfl
      simp only [List.mem_cons, List.not_mem_nil, or_false] at special
      rcases special with rfl | rfl | rfl | rfl | rfl | rfl <;>
        simp [isBarewordChar, barewordSigns, isAlphanumeric_ascii] at word
    simp only [startsNoTarget, unlike (show '[' ∈ _ by decide), unlike (show '(' ∈ _ by decide),
      unlike (show '$' ∈ _ by decide), unlike (show '\'' ∈ _ by decide), unlike (show '"' ∈ _ by decide),
      unlike (show '{' ∈ _ by decide), Bool.false_and, Bool.or_false]
  · cases same
    rw [startsNoTarget, listed]
    rfl

/-- Behind a target and its sign the attempt reads a value, and no more. -/
theorem compactAssignment?_of_target {left : Indexing} (h : StartsAssignment .unbounded limit inner c left c₁) :
    compactAssignment? limit inner c = (do
      let right ← compound limit inner .plain
      return some ⟨left, [right], ← spanFrom c.offset⟩ : Reader (Option Assignment)) c₁.next := by
  obtain ⟨o, ch, rest, rfl, -⟩ := h.starts
  refine offset_then (peek_then (second_then ?_))
  dsimp only [List.head?_cons, List.tail_cons]
  rw [if_neg (by rw [startsNoTarget_of_starts h]; exact Bool.false_ne_true)]
  refine (run_bind h.read).trans (peek_then ?_)
  have target := h.target
  rw [h.sign]
  obtain ⟨head, brackets, span⟩ := left
  cases head with
  | bareword | braced => rfl
  | _ => exact nomatch target

/-- The attempt succeeds if the value can be read. -/
theorem compactAssignment?_of_value {left : Indexing} {right : Compound}
    (h : StartsAssignment .unbounded limit inner c left c₁) (value : compound limit inner .plain c₁.next = .ok (right, c')) :
    ∃ found, compactAssignment? limit inner c = .ok (some found, c') :=
  ⟨⟨left, [right], ⟨c.offset, c'.offset⟩⟩, (compactAssignment?_of_target h).trans (run_bind value)⟩

/-- What the attempt finds is an assignment to the target. -/
theorem compactAssignment?_found {left : Indexing} {found : Assignment} (h : StartsAssignment .unbounded limit inner c left c₁)
    (read : compactAssignment? limit inner c = .ok (some found, c')) :
    ∃ right span, found = ⟨left, [right], span⟩ := by
  rw [compactAssignment?_of_target h] at read
  obtain ⟨right, c₂, -, read⟩ := run_bind_ok read
  obtain ⟨same, -⟩ := spanFrom_pure_ok read
  cases same
  exact ⟨right, _, rfl⟩

/-- The first assignment that is found, or else none can be read. -/
theorem compactAssignments_first {found : List Assignment}
    (read : compactAssignments limit inner c = .ok (found, c')) :
    (∃ first more c₁, found = first :: more ∧ compactAssignment? limit inner c = .ok (some first, c₁)) ∨
      (found = [] ∧ c' = c ∧ ∀ first c₁, compactAssignment? limit inner c ≠ .ok (some first, c₁)) := by
  obtain ⟨all, c₂, rounds, ended⟩ := run_bind_ok read
  have first : (∃ first more c₁, all = first :: more ∧ compactAssignment? limit inner c = .ok (some first, c₁)) ∨
      (all = [] ∧ c₂ = c ∧ ∀ first c₁, compactAssignment? limit inner c ≠ .ok (some first, c₁)) := by
    cases limit with
    | zero => exact nomatch rounds
    | succ limit =>
      obtain ⟨r, c₃, round, later⟩ := run_bind_ok rounds
      obtain ⟨tried, c₄, attempted, asked⟩ := run_bind_ok round
      obtain ⟨first, rfl, ran⟩ | ⟨rfl, rfl⟩ := attempt_ok attempted
      · obtain ⟨c₅, -, asked⟩ := run_skipSpaces asked
        obtain ⟨ended, asked⟩ := run_atFormEnd asked
        left
        cases ended with
        | true =>
          cases asked
          cases later
          exact ⟨first, [], c₄, rfl, ran⟩
        | false =>
          cases asked
          obtain ⟨more, rfl⟩ := repeatedOnto_found later
          exact ⟨first, more, c₄, rfl, ran⟩
      · cases asked
        cases later
        refine .inr ⟨rfl, rfl, fun first c₁ ran => ?_⟩
        rw [attempt, ran] at attempted
        exact nomatch attempted
  obtain ⟨assignment, more, c₁, rfl, ran⟩ | ⟨rfl, rfl, none⟩ := first
  · obtain ⟨c₅, -, ended⟩ := run_skipSpaces ended
    obtain ⟨here, ended⟩ := run_atFormEnd ended
    cases here with
    | true =>
      cases ended
      exact .inl ⟨assignment, more, c₁, rfl, ran⟩
    | false => exact nomatch ended
  · cases ended
    exact .inr ⟨rfl, rfl, none⟩

/-- A command has a first word. -/
theorem commandForm_head {f : Form} (read : commandForm limit inner c = .ok (f, c')) :
    ∃ head c₁, compound limit inner .plain c = .ok (head, c₁) := by
  obtain ⟨head, c₁, first, -⟩ := run_bind_ok (run_offset read)
  exact ⟨head, c₁, first⟩

end Grammar

/-- With offsets of any size, a form that starts with a target and `=` is an assignment to it. -/
theorem form_assigns_unbounded {limit depth : Nat} {c c₁ c' : Cursor} {left : Indexing} {f : Form}
    (starts : StartsAssignment .unbounded limit (inner limit depth) c left c₁)
    (lambda : OpensLambda .unbounded limit (inner limit depth) c₁.next →
      ∃ value, compound limit (inner limit depth) .plain c₁.next = .ok value)
    (read : form limit (inner limit depth) c = .ok (f, c')) :
    ∃ right more span whole, f = .assign (⟨left, [right], span⟩ :: more) whole := by
  obtain ⟨found, c₂, first, read⟩ := run_bind_ok (run_offset read)
  obtain ⟨assignment, more, c₃, rfl, ran⟩ | ⟨rfl, rfl, none⟩ := compactAssignments_first first
  · obtain ⟨right, span, rfl⟩ := compactAssignment?_found starts ran
    cases read
    exact ⟨right, more, span, _, rfl⟩
  · -- the attempt failed, but the command has a first word, so there is a value
    obtain ⟨head, c₃, word⟩ := commandForm_head read
    have value : ∃ right c₄, compound limit (inner limit depth) .plain c₁.next = .ok (right, c₄) := by
      by_cases opens : OpensLambda .unbounded limit (inner limit depth) c₁.next
      · obtain ⟨⟨right, c₄⟩, value⟩ := lambda opens
        exact ⟨right, c₄, value⟩
      · obtain ⟨n, most, rounds⟩ := compound_iff.mp ⟨head, word⟩
        obtain ⟨j, k, d, hj, hk, brackets, words⟩ := words_after_sign starts rounds
        obtain ⟨right, value⟩ := compound_after_sign opens brackets hj words (Nat.lt_of_lt_of_le hk most)
        exact ⟨right, c₃, value⟩
    obtain ⟨right, c₄, value⟩ := value
    obtain ⟨assignment, ran⟩ := compactAssignment?_of_value starts value
    exact absurd ran (none _ _)

/-- **What starts like an assignment is one.**  Take a form that starts with an assignment target and `=` right
after it.  If the form is read, it is an assignment, and the target is the first one of it; unless there is a
list of words with a brace right after it behind `=`, and what stands there cannot be read as a value.  If offsets are
bounded, the end of the code is to be one. -/
theorem form_assigns {offsets : Offsets} {limit depth : Nat} {c c₁ c' : Cursor} {left : Indexing} {f : Form}
    (fits : ∀ bound, offsets.bound? = some bound → c.offset + byteLength c.rest < bound)
    (starts : StartsAssignment offsets limit (inner limit depth) c left c₁)
    (lambda : OpensLambda offsets limit (inner limit depth) c₁.next →
      ∃ value, compound limit (inner limit depth) .plain c₁.next = .ok value)
    (read : form limit (inner limit depth) c = .ok (f, c')) :
    ∃ right more span whole, f = .assign (⟨left, [right], span⟩ :: more) whole := by
  obtain ⟨_ | bound⟩ := offsets
  · exact form_assigns_unbounded starts lambda read
  · have short : c.total < bound := fits bound rfl
    have inside := follows_inner bound limit depth
    have here : c.offset < bound := Nat.lt_of_le_of_lt c.offset_le_total short
    have first : Follows bound c (@indexing? (.below bound) limit (@inner (.below bound) limit depth) .target)
        (indexing? limit (inner limit depth) .target) := follows_indexing? inside .target here
    obtain ⟨within, total⟩ := first.stays starts.read
    -- behind the sign
    have passed : c₁.next.total = c₁.total := (Cursor.passes_next starts.sign).moves.total_eq
    have short' : c₁.next.total < bound := by omega
    have value : Follows bound c₁.next (@compound (.below bound) limit (@inner (.below bound) limit depth) .plain)
        (compound limit (inner limit depth) .plain) :=
      follows_compound inside .plain (Nat.lt_of_le_of_lt c₁.next.offset_le_total short')
    have target : StartsAssignment .unbounded limit (inner limit depth) c left c₁ :=
      ⟨(first.ok_iff short).mp starts.read, starts.target, starts.sign⟩
    refine form_assigns_unbounded target (fun opens => ?_) (((follows_form inside here).ok_iff short).mp read)
    obtain ⟨bracket, words, d, listed, brace⟩ := opens
    have blank : c₁.next.Moves c₁.next.next.pastBlank :=
      (Cursor.passes_next bracket).moves.trans (Cursor.moves_skip _ _ _ _)
    have short'' : c₁.next.next.pastBlank.total < bound := by rwa [blank.total_eq]
    have list : @items (.below bound) limit (@inner (.below bound) limit depth) ']' .list c₁.next.next.pastBlank =
        .ok (words, d) :=
      ((follows_items inside _ _ (Nat.lt_of_le_of_lt (Cursor.offset_le_total _) short'')).ok_iff short'').mpr listed
    obtain ⟨r, ran⟩ := lambda ⟨bracket, words, d, list, brace⟩
    exact ⟨r, (value.ok_iff short').mp ran⟩

/-- A lambda is assigned to an element. -/
theorem form_assigns_lambda :
    ∃ left c₁ f c', StartsAssignment .word 21 (@inner .word 21 21) (Cursor.start "x[0]=[a]{ put $a }".toList) left c₁ ∧
      OpensLambda .word 21 (@inner .word 21 21) c₁.next ∧
      (∃ value, @compound .word 21 (@inner .word 21 21) .plain c₁.next = .ok value) ∧
      @form .word 21 (@inner .word 21 21) (Cursor.start "x[0]=[a]{ put $a }".toList) = .ok (f, c') ∧
      ∃ right more span whole, f = .assign (⟨left, [right], span⟩ :: more) whole := by
  obtain ⟨left, c₁, starts⟩ : ∃ left c₁,
      StartsAssignment .word 21 (@inner .word 21 21) (Cursor.start "x[0]=[a]{ put $a }".toList) left c₁ :=
    ⟨_, _, rfl, rfl, rfl⟩
  obtain ⟨f, c', read⟩ : ∃ f c', @form .word 21 (@inner .word 21 21) (Cursor.start "x[0]=[a]{ put $a }".toList) =
      .ok (f, c') := ⟨_, _, rfl⟩
  have there : c₁.next = ⟨5, "[a]{ put $a }".toList⟩ := by
    cases starts.read
    rfl
  have value : ∃ value, @compound .word 21 (@inner .word 21 21) .plain c₁.next = .ok value := there ▸ ⟨_, rfl⟩
  have opens : OpensLambda .word 21 (@inner .word 21 21) c₁.next := there ▸ ⟨rfl, _, _, rfl, rfl⟩
  have fits : ∀ bound, Offsets.word.bound? = some bound →
      (Cursor.start "x[0]=[a]{ put $a }".toList).offset +
        byteLength (Cursor.start "x[0]=[a]{ put $a }".toList).rest < bound := by
    rintro _ ⟨⟩
    decide +kernel
  exact ⟨left, c₁, f, c', starts, opens, value, read, form_assigns fits starts (fun _ => value) read⟩

/-- No lambda has a parameter in quotes.  So the attempt fails, the text is read as an index with a block after
it, and the form that starts with the target `x` and `=` is a command. -/
theorem form_is_command :
    ∃ left c₁ head whole pipeline chunk,
      StartsAssignment .word 17 (@inner .word 17 17) (Cursor.start "x=['a']{ put 1 }".toList) left c₁ ∧
      @form .word 17 (@inner .word 17 17) (Cursor.start "x=['a']{ put 1 }".toList) =
        .ok (.command head [] whole, ⟨16, []⟩) ∧
      readChunk "x=['a']{ put 1 }" = .ok ⟨[⟨[.command head [] whole], pipeline⟩], chunk⟩ :=
  ⟨_, _, _, _, _, _, ⟨rfl, rfl, rfl⟩, rfl, rfl⟩

end ValueShell
