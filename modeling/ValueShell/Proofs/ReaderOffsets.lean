/-
  Offsets that are not reached make no difference.

  Code is read with offsets of 32 bits.  In a text whose end still has an offset, no other place is too far: there a
  reader does what it does with offsets of any size (`Follows.agrees`), and the theory of the grammar, which is about
  these, says what happens.  The one number that may be missing is the one after the end, where a bad escape is
  reported if the backslash is the last character.

  In a longer text a reader may do something else.  But whatever it finds, it has come there without passing the
  bound (`Follows.stays`).  So it does not get to the end of such a text, and the text is not read
  (`readChunk_ok_iff`).

  The rules go through the grammar in its own order, as those of `Extends` do.  Here they are about a cursor, since a
  character can be passed only where there is one.
-/
import ValueShell.Proofs.ReaderRuns
import ValueShell.Syntax.Grammar

namespace ValueShell

/-- The length of the whole text. -/
def Cursor.total (c : Cursor) : Nat := c.offset + byteLength c.rest

/-- Moving never changes how long the code is. -/
theorem Cursor.Moves.total_eq {c c' : Cursor} (h : c.Moves c') : c'.total = c.total := by
  obtain ⟨text, rest, offset⟩ := h
  rw [total, total, rest, offset, byteLength_append, Nat.add_assoc]

/-- An offset is inside the code. -/
theorem Cursor.offset_le_total (c : Cursor) : c.offset ≤ c.total := Nat.le_add_right ..

namespace TextReader

variable {ε α β : Type} {bound : Nat} {c c' : Cursor}

/-- **The same outcome.**  If it need not be exact, one problem is as good as another. -/
def Agree (exact : Prop) (r s : Except (ReadStop ε) α) : Prop :=
  r = s ∨ ¬ exact ∧ ∃ e e', r = .error (.problem e) ∧ s = .error (.problem e')

theorem Agree.eq_ok {exact : Prop} {r : Except (ReadStop ε) α} {a : α} (h : Agree exact r (.ok a)) : r = .ok a := by
  rcases h with same | ⟨-, e, e', -, failed⟩
  · exact same
  · exact nomatch failed

/-- **A reader with bounded offsets follows another one** from a cursor.  What it finds is before the bound, and if
the whole text is, then it does what the other does; the problem may be a different one if the number after the end of
the text is too large. -/
structure Follows (bound : Nat) (c : Cursor) (x y : TextReader ε α) : Prop where
  stays : ∀ {a c'}, x c = .ok (a, c') → c'.offset < bound ∧ c'.total = c.total
  agrees : c.total < bound → Agree (c.total + 1 < bound) (x c) (y c)

/-- In a text that is short enough both find the same. -/
theorem Follows.ok_iff {x y : TextReader ε α} (h : Follows bound c x y) (fits : c.total < bound) {r : α × Cursor} :
    x c = .ok r ↔ y c = .ok r := by
  rcases h.agrees fits with same | ⟨-, e, e', failed, failed'⟩
  · rw [same]
  · rw [failed, failed']
    exact iff_of_false nofun nofun

/-- What reads the text alone. -/
theorem follows_of_stays {x : TextReader ε α} (within : c.offset < bound) (h : ∀ {a c'}, x c = .ok (a, c') → c' = c) :
    Follows bound c x x where
  stays read := by
    obtain rfl := h read
    exact ⟨within, rfl⟩
  agrees _ := .inl rfl

/-- To return something reads nothing. -/
theorem follows_pure (within : c.offset < bound) (a : α) : Follows bound c (pure a : TextReader ε α) (pure a) :=
  follows_of_stays within fun read => (run_pure_ok read).2.symm

/-- To fail reads nothing, and fails in the same way with any offsets. -/
theorem follows_throw (stop : ReadStop ε) : Follows bound c (throw stop : TextReader ε α) (throw stop) where
  stays read := nomatch read
  agrees _ := .inl rfl

/-- What comes next follows from where the first part ends. -/
theorem follows_bind_of_run {x y : TextReader ε α} {k l : α → TextReader ε β} (h : Follows bound c x y)
    (next : ∀ a c', x c = .ok (a, c') → c'.offset < bound → Follows bound c' (k a) (l a)) :
    Follows bound c (x >>= k) (y >>= l) where
  stays read := by
    obtain ⟨a, c₁, first, read⟩ := run_bind_ok read
    obtain ⟨within, same⟩ := h.stays first
    obtain ⟨within', same'⟩ := (next a c₁ first within).stays read
    exact ⟨within', same'.trans same⟩
  agrees fits := by
    show Agree _ ((x c).bind fun p => k p.1 p.2) ((y c).bind fun p => l p.1 p.2)
    rcases h.agrees fits with same | ⟨loose, e, e', failed, failed'⟩
    · rw [← same]
      rcases first : x c with stop | ⟨a, c₁⟩
      · exact .inl rfl
      · obtain ⟨within, total⟩ := h.stays first
        have later := (next a c₁ first within).agrees (total ▸ fits)
        rwa [total] at later
    · rw [failed, failed']
      exact .inr ⟨loose, e, e', rfl, rfl⟩

/-- **One reader after the other.**  The second starts where the first ended, and this is within the bound
again. -/
theorem follows_bind {x y : TextReader ε α} {k l : α → TextReader ε β} (h : Follows bound c x y)
    (next : ∀ a c', c'.offset < bound → Follows bound c' (k a) (l a)) : Follows bound c (x >>= k) (y >>= l) :=
  follows_bind_of_run h fun a c' _ => next a c'

/-! ## Looking at the text -/

/-- The offset is the same number, since it has not passed the bound. -/
theorem follows_offset {k l : Nat → TextReader ε α} (next : Follows bound c (k c.offset) (l c.offset)) :
    Follows bound c (offset >>= k) (offset >>= l) := ⟨next.stays, next.agrees⟩

/-- What comes next is the same letter; the rest of the reader may make use of it. -/
theorem follows_peek {k l : Option Char → TextReader ε α}
    (next : ∀ ch, c.rest.head? = ch → Follows bound c (k ch) (l ch)) :
    Follows bound c (peek? >>= k) (peek? >>= l) := ⟨(next _ rfl).stays, (next _ rfl).agrees⟩

theorem follows_second {k l : Option Char → TextReader ε α} (next : ∀ ch, Follows bound c (k ch) (l ch)) :
    Follows bound c (second? >>= k) (second? >>= l) := ⟨(next _).stays, (next _).agrees⟩

/-- Both sides take the same branch. -/
theorem follows_ite {p : Prop} [Decidable p] {x x' y y' : TextReader ε α} (yes : p → Follows bound c x x')
    (no : ¬ p → Follows bound c y y') : Follows bound c (if p then x else y) (if p then x' else y') := by
  split
  · next h => exact yes h
  · next h => exact no h

/-! ## Moving in the text -/

/-- **A move is made** in both, if it does not go too far. -/
theorem follows_reach (moves : c.Moves c') : Follows bound c (reach bound c' : TextReader ε Unit) (set c') where
  stays read := by
    unfold reach at read
    split at read
    · next within =>
      cases read
      exact ⟨within, moves.total_eq⟩
    · exact nomatch read
  agrees fits := by
    have within : c'.offset < bound := by
      have := c'.offset_le_total
      have := moves.total_eq
      omega
    rw [reach, if_pos within]
    exact .inl rfl

/-- To pass moves to the same place, or does not move at all where offsets have come to their end. -/
theorem follows_pass {move : Cursor → Cursor} (moves : c.Moves (move c)) :
    Follows bound c (@pass _ (.below bound) move : TextReader ε Unit) (pass move) :=
  ⟨(follows_reach moves).stays, (follows_reach moves).agrees⟩

/-- A character is passed if it is there. -/
theorem follows_advance {ch : Char} (here : c.rest.head? = some ch) :
    Follows bound c (@advance ε (.below bound)) advance := by
  have moved : Follows bound c (reach bound c.next : TextReader ε Unit) (set c.next) :=
    follows_reach (Cursor.passes_next here).moves
  have more : c.rest.isEmpty = false := by
    rcases rest : c.rest with _ | _
    · rw [rest] at here
      exact nomatch here
    · rfl
  have same : @advance ε (.below bound) c = reach bound c.next c := by
    show (if c.rest.isEmpty = true then _ else reach bound c.next : TextReader ε Unit) c = _
    rw [more]
    rfl
  exact ⟨fun read => moved.stays (same ▸ read), fun fits => same ▸ moved.agrees fits⟩

/-- A run of letters is the same run. -/
theorem follows_munch (p : Char → Bool) : Follows bound c (@munch ε (.below bound) p) (munch p) := by
  let run := c.rest.takeWhile p
  have passed : Follows bound c (@pass ε (.below bound) (Cursor.dropWhile p)) (pass (Cursor.dropWhile p)) :=
    follows_pass (Cursor.passes_dropWhile p c).moves
  have both : Follows bound c (@pass ε (.below bound) (Cursor.dropWhile p) >>= fun _ => pure run)
      (pass (Cursor.dropWhile p) >>= fun _ => pure run) :=
    follows_bind passed fun _ _ within => follows_pure within _
  exact ⟨both.stays, both.agrees⟩

/-! ## Attempts and repetitions -/

/-- An attempt that fails starts again from where it was. -/
theorem follows_attempt {x y : TextReader ε (Option α)} (within : c.offset < bound) (h : Follows bound c x y) :
    Follows bound c (attempt x) (attempt y) where
  stays read := by
    rcases attempt_ok read with ⟨a, -, found⟩ | ⟨-, rfl⟩
    · exact h.stays found
    · exact ⟨within, rfl⟩
  agrees fits := by
    unfold attempt
    rcases h.agrees fits with same | ⟨-, e, e', failed, failed'⟩
    · rw [same]
      exact .inl rfl
    · rw [failed, failed']
      exact .inl rfl

/-- Repetition, by induction on the rounds that are left. -/
theorem follows_repeatedOnto {round round' : TextReader ε (Round α)}
    (h : ∀ c, c.offset < bound → Follows bound c round round') (limit : Nat) (items : List α) (c : Cursor)
    (within : c.offset < bound) : Follows bound c (repeatedOnto round limit items) (repeatedOnto round' limit items) := by
  induction limit generalizing items c with
  | zero => exact follows_throw _
  | succ limit ih =>
    refine follows_bind (h c within) fun r c' within' => ?_
    cases r with
    | stop => exact follows_pure within' _
    | last item => exact follows_pure within' _
    | more item => exact ih _ _ within'

theorem follows_repeated {round round' : TextReader ε (Round α)} {limit : Nat} (within : c.offset < bound)
    (h : ∀ c, c.offset < bound → Follows bound c round round') :
    Follows bound c (repeated limit round) (repeated limit round') := follows_repeatedOnto h limit [] c within

end TextReader

namespace Reader

open TextReader

variable {α : Type} {bound limit : Nat} {c : Cursor}

/-! ## Problems -/

/-- A failure at a span is the same failure. -/
theorem follows_failAt (problem : ParseProblem) (span : Span) :
    Follows bound c (failAt problem span : Reader α) (failAt problem span) := follows_throw _

theorem follows_failFrom (start : Nat) (problem : ParseProblem) :
    Follows bound c (failFrom start problem : Reader α) (failFrom start problem) where
  stays read := nomatch read
  agrees _ := .inl rfl

/-- A span ends at the offset, which is the same. -/
theorem follows_spanFrom (within : c.offset < bound) (start : Nat) :
    Follows bound c (spanFrom start) (spanFrom start) := follows_of_stays within fun read => (run_pure_ok read).2.symm

/-- A character that is there ends at a good offset. -/
theorem follows_unexpected : Follows bound c (@unexpected (.below bound) α) unexpected := by
  refine follows_offset (follows_peek fun ch next => ?_)
  cases ch with
  | none => exact follows_failAt _ _
  | some ch =>
    refine ⟨fun read => (nomatch read), fun fits => .inl ?_⟩
    have inside : c.offset + ch.utf8Size < bound := by
      have := c.next.offset_le_total
      have := (Cursor.passes_next next).offset
      have := (Cursor.passes_next next).moves.total_eq
      simp only [byteLength] at *
      omega
    show (failAt (.unexpected ch) ⟨c.offset, (c.offset + ch.utf8Size) % bound⟩ : Reader α) c = _
    rw [Nat.mod_eq_of_lt inside]
    rfl

/-! ## Blanks and comments -/

theorem follows_skipSpaces : Follows bound c (@skipSpaces (.below bound)) skipSpaces :=
  follows_pass (Cursor.passes_dropWhile _ _).moves

/-- A line end is found if it is before the bound. -/
theorem follows_toLineEnd (within : c.offset < bound) : Follows bound c (@toLineEnd (.below bound)) toLineEnd := by
  have moves := (Cursor.passes_dropWhile (· != '\n') c).moves
  have moved : Follows bound c (reach bound (c.dropWhile (· != '\n')) : Reader Unit) (set (c.dropWhile (· != '\n'))) :=
    follows_reach moves
  refine ⟨fun {a c'} read => ?_, fun fits => ?_⟩
  · change (if _ then pure () else reach bound (c.dropWhile (· != '\n')) : Reader Unit) c = _ at read
    split at read
    · obtain ⟨-, rfl⟩ := run_pure_ok read
      exact ⟨within, rfl⟩
    · exact moved.stays read
  · show Agree _ ((if _ then pure () else reach bound (c.dropWhile (· != '\n')) : Reader Unit) c) _
    rw [if_neg]
    · exact moved.agrees fits
    · have := (c.dropWhile (· != '\n')).offset_le_total
      have := moves.total_eq
      simp only [Bool.and_eq_true, decide_eq_true_eq, not_and, Nat.not_le]
      omega

/-- A comment ends at a newline or with the code, and its length is within the bound. -/
theorem follows_skipComment (within : c.offset < bound) :
    Follows bound c (@skipComment (.below bound)) skipComment :=
  follows_peek fun _ _ => follows_ite (fun _ => follows_toLineEnd within) fun _ => follows_pure within _

section Rounds

variable {separator : Char → Bool}

/-- Separators are skipped first. -/
theorem skip_dropWhile (c : Cursor) : Cursor.skip separator false c.offset c.rest =
    Cursor.skip separator false (c.dropWhile separator).offset (c.dropWhile separator).rest := by
  obtain ⟨offset, cs⟩ := c
  induction cs generalizing offset with
  | nil => rfl
  | cons ch cs ih =>
    cases blank : separator ch with
    | true => rw [Cursor.dropWhile_of_pos blank, ← ih, Cursor.skip, if_pos blank]
    | false => rw [Cursor.dropWhile_of_neg blank]

/-- A comment is skipped up to the newline, which is a separator. -/
theorem skip_comment (newline : separator '\n' = true) (c : Cursor) : Cursor.skip separator true c.offset c.rest =
    Cursor.skip separator false (c.dropWhile (· != '\n')).offset (c.dropWhile (· != '\n')).rest := by
  obtain ⟨offset, cs⟩ := c
  induction cs generalizing offset with
  | nil => rfl
  | cons ch cs ih =>
    by_cases stops : ch = '\n'
    · subst stops
      rw [Cursor.dropWhile_of_neg rfl, Cursor.skip, Cursor.skip, if_pos newline]
      rfl
    · have inside : (ch != '\n') = true := bne_iff_ne.mpr stops
      rw [Cursor.dropWhile_of_pos (p := (· != '\n')) inside, ← ih, Cursor.skip, inside]

variable (newline : separator '\n' = true)

/-- Skipping stays within the bound, and within the code. -/
theorem stays_skipRounds (rounds : Nat) {c c' : Cursor} {u : Unit} (within : c.offset < bound)
    (read : @skipRounds (.below bound) separator rounds c = .ok (u, c')) : c'.offset < bound ∧ c'.total = c.total := by
  induction rounds generalizing c with
  | zero => exact nomatch read
  | succ rounds ih =>
    obtain ⟨_, d, passed, read⟩ := run_bind_ok (x := @pass _ (.below bound) (Cursor.dropWhile separator)) read
    obtain ⟨within, same⟩ := (follows_pass (Cursor.passes_dropWhile _ c).moves).stays passed
    obtain ⟨next, -, read⟩ := run_peek read
    split at read
    · obtain ⟨_, e, skipped, read⟩ := run_bind_ok (x := @skipComment (.below bound)) read
      obtain ⟨within', same'⟩ := (follows_skipComment within).stays skipped
      obtain ⟨within'', same''⟩ := ih within' read
      exact ⟨within'', same''.trans (same'.trans same)⟩
    · obtain ⟨-, rfl⟩ := run_pure_ok read
      exact ⟨within, same⟩

include newline

/-- **The rounds end where `Cursor.skip` says**: there is a comment less after each. -/
theorem skipRounds_eq {rounds : Nat} {c : Cursor} (fits : c.total < bound) (room : c.rest.length < rounds) :
    @skipRounds (.below bound) separator rounds c = .ok ((), Cursor.skip separator false c.offset c.rest) := by
  induction rounds generalizing c with
  | zero => exact absurd room (Nat.not_lt_zero _)
  | succ rounds ih =>
    have moves := (Cursor.passes_dropWhile separator c).moves
    have passed := ((follows_pass (ε := ParseError) moves).agrees fits).eq_ok
    have shorter : (c.dropWhile separator).rest.length ≤ c.rest.length := (List.dropWhile_suffix _).length_le
    have other := c.head_dropWhile separator
    refine (run_bind passed).trans ?_
    rw [skip_dropWhile]
    generalize c.dropWhile separator = d at moves shorter other
    have dfits : d.total < bound := moves.total_eq ▸ fits
    obtain ⟨offset, rest⟩ := d
    cases rest with
    | nil => rfl
    | cons ch rest =>
      have word : ¬ separator ch = true := Bool.eq_false_iff.mp (other ch rfl)
      by_cases comment : ch = '#'
      · subst comment
        -- the comment ends in what is left, and there is less left then
        have within : offset < bound := Nat.lt_of_le_of_lt (Cursor.offset_le_total ⟨offset, '#' :: rest⟩) dfits
        have skipped : @skipComment (.below bound) ⟨offset, '#' :: rest⟩ =
            .ok ((), Cursor.dropWhile (· != '\n') ⟨offset, '#' :: rest⟩) :=
          ((follows_skipComment within).agrees dfits).eq_ok
        have past := (Cursor.passes_dropWhile (· != '\n') ⟨offset, '#' :: rest⟩).moves
        show (@skipComment (.below bound) >>= fun _ => @skipRounds (.below bound) separator rounds) _ = _
        rw [run_bind skipped, ih (past.total_eq ▸ dfits)]
        · rw [← skip_comment newline ⟨offset, '#' :: rest⟩, Cursor.skip, Cursor.skip, if_neg word, if_pos rfl]
          rfl
        · have less : (rest.dropWhile (· != '\n')).length ≤ rest.length := (List.dropWhile_suffix _).length_le
          rw [List.length_cons] at shorter
          show ((('#' :: rest).dropWhile (· != '\n')).length) < rounds
          rw [List.dropWhile_cons_of_pos (by decide)]
          omega
      · have stays : Cursor.skip separator false offset (ch :: rest) = ⟨offset, ch :: rest⟩ := by
          rw [Cursor.skip, if_neg word, if_neg comment]
        have none : (some ch == some '#') = false := beq_eq_false_iff_ne.mpr fun same => comment (Option.some.inj same)
        show (if (some ch == some '#') = true then _ else pure () : Reader Unit) ⟨offset, ch :: rest⟩ = _
        rw [none, stays]
        rfl

/-- To skip separators takes rounds until nothing moves any more, which is where the unbounded skip ends. -/
theorem follows_skipAll (within : c.offset < bound) :
    Follows bound c (@skipAll (.below bound) separator) (skipAll separator) where
  stays read := stays_skipRounds _ within read
  agrees fits := .inl (skipRounds_eq newline fits (Nat.lt_succ_self _))

end Rounds

theorem follows_skipBlank (within : c.offset < bound) : Follows bound c (@skipBlank (.below bound)) skipBlank :=
  follows_skipAll rfl within

theorem follows_skipSeparators (within : c.offset < bound) :
    Follows bound c (@skipSeparators (.below bound)) skipSeparators := follows_skipAll rfl within

/-! ## Delimiters and quotes -/

theorem follows_atFormEnd (within : c.offset < bound) : Follows bound c atFormEnd atFormEnd := by
  refine follows_of_stays within fun {ended c'} read => ?_
  obtain ⟨next, -, read⟩ := run_peek read
  split at read <;> exact (run_pure_ok read).2.symm

/-- The closing letter is there on both sides or on none. -/
theorem follows_closeWith {closer : Char} {what : Construct} {start : Nat} :
    Follows bound c (@closeWith (.below bound) closer what start) (closeWith closer what start) :=
  follows_peek fun _ next => follows_ite (fun here => follows_advance (next.trans (eq_of_beq here)))
    fun _ => follows_failFrom _ _

/-- The digits of a code point, by induction on how much is left. -/
theorem follows_codePoint (start base digits acc : Nat) (within : c.offset < bound) :
    Follows bound c (@codePoint (.below bound) start base digits acc) (codePoint start base digits acc) := by
  induction digits generalizing acc c with
  | zero => exact follows_pure within _
  | succ digits ih =>
    refine follows_peek fun ch next => ?_
    cases ch with
    | none => exact follows_failFrom _ _
    | some ch =>
      split
      · exact follows_bind (follows_advance next) fun _ _ within => ih _ within
      · exact follows_failFrom _ _

/-- A character is reported that may not be there: at the end of the text its own end may not be a good offset. -/
theorem follows_failPast (start : Nat) (problem : ParseProblem) :
    Follows bound c (@advance _ (.below bound) >>= fun _ => (failFrom start problem : Reader α))
      (advance >>= fun _ => failFrom start problem) := by
  cases next : c.rest.head? with
  | some ch => exact follows_bind (follows_advance next) fun _ _ _ => follows_failFrom _ _
  | none =>
    obtain ⟨offset, rest⟩ := c
    obtain rfl : rest = [] := List.head?_eq_none_iff.mp next
    refine ⟨fun read => (nomatch read), fun _ => ?_⟩
    by_cases exact : offset + 1 < bound
    · left
      show (failAt problem ⟨start, (offset + 1) % bound⟩ : Reader α) ⟨(offset + 1) % bound, []⟩ = _
      rw [Nat.mod_eq_of_lt exact]
      rfl
    · exact .inr ⟨exact, _, _, rfl, rfl⟩

/-- An escape; the letter before it is known to be a backslash. -/
theorem follows_escape (here : c.rest.head? = some '\\') : Follows bound c (@escape (.below bound)) escape := by
  refine follows_offset (follows_bind (follows_advance here) fun _ d within => follows_peek fun ch next => ?_)
  dsimp only
  split
  iterate 8 exact follows_bind (follows_advance next) fun _ _ within => follows_pure within _
  · exact follows_bind (follows_advance next) fun _ _ within => follows_codePoint _ _ _ _ within
  · exact follows_ite (fun _ => follows_codePoint _ _ _ _ within) fun _ => follows_failPast _ _

/-- A text between single quotes; it starts with one, so that there is something to pass. -/
theorem follows_singleQuoted (here : c.rest.head? = some '\'') :
    Follows bound c (@singleQuoted (.below bound) limit) (singleQuoted limit) := by
  refine follows_offset (follows_bind (follows_advance here) fun _ c within => ?_)
  refine follows_bind (follows_repeated within fun c within => follows_peek fun ch next => ?_)
    fun _ _ within => follows_pure within _
  split
  · exact follows_failFrom _ _
  · refine follows_bind (follows_advance next) fun _ c within => follows_peek fun ch next => follows_ite ?_ ?_
    · exact fun same => follows_bind (follows_advance (next.trans (eq_of_beq same))) fun _ _ within =>
        follows_pure within _
    · exact fun _ => follows_pure within _
  · exact follows_bind (follows_advance next) fun _ _ within => follows_pure within _

/-- A text between double quotes. -/
theorem follows_doubleQuoted (here : c.rest.head? = some '"') :
    Follows bound c (@doubleQuoted (.below bound) limit) (doubleQuoted limit) := by
  refine follows_offset (follows_bind (follows_advance here) fun _ c within => ?_)
  refine follows_bind (follows_repeated within fun c within => follows_peek fun ch next => ?_)
    fun _ _ within => follows_pure within _
  split
  · exact follows_failFrom _ _
  · exact follows_bind (follows_advance next) fun _ _ within => follows_pure within _
  · exact follows_bind (follows_escape next) fun _ _ within => follows_pure within _
  · exact follows_bind (follows_advance next) fun _ _ within => follows_pure within _

end Reader

namespace Grammar

open Reader TextReader

/-- What may stand inside a delimiter, with bounded offsets. -/
structure Inner.Follows (bound : Nat) (i i' : Inner) : Prop where
  chunk : ∀ closer c, c.offset < bound → TextReader.Follows bound c (i.chunk closer) (i'.chunk closer)
  compound : ∀ around c, c.offset < bound → TextReader.Follows bound c (i.compound around) (i'.compound around)

section

variable {bound limit : Nat} {i i' : Inner} (hi : i.Follows bound i') {c : Cursor}

/-! ## Primaries -/

/-- A variable, whose dollar sign is passed. -/
theorem follows_variableName (here : c.rest.head? = some '$') :
    Follows bound c (@variableName (.below bound)) variableName := by
  have name (start : Nat) (text : List Char → String) {c : Cursor} : Follows bound c
      (@munch _ (.below bound) isVariableChar >>= fun name =>
        (if name.isEmpty then failFrom start .emptyVariableName else pure (text name) : Reader String))
      (munch isVariableChar >>= fun name =>
        if name.isEmpty then failFrom start .emptyVariableName else pure (text name)) :=
    follows_bind (follows_munch _) fun _ _ within =>
      follows_ite (fun _ => follows_failFrom _ _) fun _ => follows_pure within _
  refine follows_offset (follows_bind (follows_advance here) fun _ c within => follows_peek fun ch next => ?_)
  dsimp only
  split
  · next marked =>
    exact follows_bind (follows_advance (next.trans (eq_of_beq marked))) fun _ _ _ => name _ _
  · exact name _ _

/-- Items are taken as parameters without reading on. -/
theorem params_stays {found : List Compound} {names : List Param} {c c' : Cursor}
    (read : params found c = .ok (names, c')) : c' = c := by
  induction found generalizing names c' with
  | nil => exact (run_pure_ok read).2.symm
  | cons item rest ih =>
    rw [params] at read
    cases named : item.bareword? with
    | none =>
      rw [named] at read
      exact nomatch read
    | some name =>
      rw [named] at read
      obtain ⟨more, c₁, later, read⟩ := run_bind_ok read
      exact (run_pure_ok read).2.symm.trans (ih later)

theorem follows_params (found : List Compound) (within : c.offset < bound) :
    Follows bound c (params found) (params found) := follows_of_stays within params_stays

theorem follows_bareword? (around : Surroundings) :
    Follows bound c (@bareword? (.below bound) around) (bareword? around) := by
  refine follows_offset (follows_bind (follows_munch _) fun text _ within => ?_)
  exact follows_ite (fun _ => follows_pure within _) fun _ =>
    follows_bind (follows_spanFrom within _) fun _ _ within => follows_pure within _

include hi

/-- The body of a lambda, by the inner readers. -/
theorem follows_lambdaBody (here : c.rest.head? = some '{') :
    Follows bound c (@lambdaBody (.below bound) i) (lambdaBody i') :=
  follows_offset (follows_bind (follows_advance here) fun _ _ within => follows_bind (hi.chunk _ _ within)
    fun _ _ _ => follows_bind follows_closeWith fun _ _ within => follows_pure within _)

/-- The words between brackets. -/
theorem follows_items (closer : Char) (what : Construct) (within : c.offset < bound) :
    Follows bound c (@items (.below bound) limit i closer what) (items limit i' closer what) := by
  refine follows_offset (follows_repeated within fun c within => ?_)
  refine follows_bind (follows_skipBlank within) fun _ c within => follows_peek fun ch next => ?_
  cases ch with
  | none => exact follows_failFrom _ _
  | some ch =>
    refine follows_ite (fun _ => ?_) fun _ => ?_
    · exact follows_bind (follows_advance next) fun _ _ within => follows_pure within _
    · refine follows_bind (hi.compound _ _ within) fun item c within => ?_
      exact follows_ite (fun _ => follows_unexpected) fun _ => follows_pure within _

/-- The pairs of a map. -/
theorem follows_mapPairs (start : Nat) (within : c.offset < bound) :
    Follows bound c (@mapPairs (.below bound) limit i start) (mapPairs limit i' start) := by
  refine follows_repeated within fun c within => ?_
  refine follows_bind (follows_skipBlank within) fun _ c within => follows_peek fun ch next => ?_
  split
  · exact follows_failFrom _ _
  · exact follows_bind (follows_advance next) fun _ _ within => follows_pure within _
  · refine follows_offset (follows_bind (follows_advance next) fun _ c within => follows_peek fun ch next => ?_)
    refine follows_ite (fun closed => ?_) fun _ => ?_
    · exact follows_bind (follows_advance (next.trans (eq_of_beq closed))) fun _ _ within => follows_pure within _
    · refine follows_bind (hi.compound _ _ within) fun key c within => follows_peek fun ch next => ?_
      refine follows_ite (fun _ => follows_failFrom _ _) fun sign => ?_
      simp only [Bool.or_eq_true, bne_iff_ne, not_or] at sign
      refine follows_bind (follows_advance (next.trans (Decidable.of_not_not sign.2))) fun _ _ within => ?_
      refine follows_bind (hi.compound _ _ within) fun value _ within => ?_
      exact follows_bind (follows_spanFrom within _) fun _ _ within => follows_pure within _
  · exact follows_unexpected

/-- A list or a map, from its opening bracket. -/
theorem follows_bracketed (start : Nat) (here : c.rest.head? = some '[') :
    Follows bound c (@bracketed (.below bound) limit i start) (bracketed limit i' start) := by
  refine follows_bind (follows_advance here) fun _ _ within => ?_
  refine follows_bind (follows_skipBlank within) fun _ c within => follows_peek fun ch next => ?_
  refine follows_ite (fun _ => ?_) fun _ => ?_
  · exact follows_bind (follows_mapPairs hi start within) fun _ _ within =>
      follows_bind (follows_spanFrom within _) fun _ _ within => follows_pure within _
  · refine follows_bind (follows_items hi _ _ within) fun found c within => follows_peek fun ch next => ?_
    refine follows_ite (fun opens => ?_) fun _ => ?_
    · refine follows_bind_of_run (follows_params found within) fun names c₁ read _ => ?_
      obtain rfl := params_stays read
      exact follows_bind (follows_lambdaBody hi (next.trans (eq_of_beq opens))) fun _ _ within =>
        follows_bind (follows_spanFrom within _) fun _ _ within => follows_pure within _
    · exact follows_bind (follows_spanFrom within _) fun _ _ within => follows_pure within _

theorem follows_bracedItems (here : c.rest.head? = some '{') :
    Follows bound c (@bracedItems (.below bound) limit i) (bracedItems limit i') := by
  refine follows_offset (follows_bind (follows_advance here) fun _ c within => ?_)
  refine follows_repeated within fun c within => ?_
  refine follows_bind (follows_skipBlank within) fun _ _ within => follows_bind (hi.compound _ _ within) fun item _ within => ?_
  refine follows_bind (follows_skipBlank within) fun _ c within => follows_peek fun ch next => ?_
  split
  · exact follows_bind (follows_advance next) fun _ _ within => follows_pure within _
  · exact follows_bind (follows_advance next) fun _ _ within => follows_pure within _
  · exact follows_failFrom _ _
  · exact follows_unexpected

/-- What a word starts with.  Each case has its opening letter in front, and passes it. -/
theorem follows_primary? (around : Surroundings) (within : c.offset < bound) :
    Follows bound c (@primary? (.below bound) limit i around) (primary? limit i' around) := by
  have spanned {α : Type} (start : Nat) (node : α → Span → Primary) {x y : Reader α} {c : Cursor}
      (h : Follows bound c x y) : Follows bound c (x >>= fun a => spanFrom start >>= fun s => pure (some (node a s)))
        (y >>= fun a => spanFrom start >>= fun s => pure (some (node a s))) :=
    follows_bind h fun _ _ within => follows_bind (follows_spanFrom within _) fun _ _ within => follows_pure within _
  refine follows_offset (follows_peek fun ch next => ?_)
  split
  · exact follows_pure within _
  · exact spanned _ _ (follows_singleQuoted next)
  · exact spanned _ _ (follows_doubleQuoted next)
  · exact spanned _ _ (follows_variableName next)
  · refine follows_bind (follows_advance next) fun _ _ within => follows_bind (hi.chunk _ _ within) fun chunk _ _ => ?_
    exact follows_bind follows_closeWith fun _ _ within =>
      follows_bind (follows_spanFrom within _) fun _ _ within => follows_pure within _
  · exact follows_bind (follows_bracketed hi _ next) fun _ _ within => follows_pure within _
  · refine follows_second fun second => follows_ite (fun _ => ?_) fun _ => ?_
    · exact spanned _ _ (follows_lambdaBody hi next)
    · exact spanned _ _ (follows_bracedItems hi next)
  · exact follows_bareword? around

/-! ## Compounds -/

/-- An index in brackets. -/
theorem follows_bracket (here : c.rest.head? = some '[') :
    Follows bound c (@bracket (.below bound) limit i) (bracket limit i') :=
  follows_offset (follows_bind (follows_advance here) fun _ _ within =>
    follows_bind (follows_items hi _ _ within) fun _ _ within =>
      follows_bind (follows_spanFrom within _) fun _ _ within => follows_pure within _)

/-- A primary with its indices. -/
theorem follows_indexing? (around : Surroundings) (within : c.offset < bound) :
    Follows bound c (@indexing? (.below bound) limit i around) (indexing? limit i' around) := by
  refine follows_offset (follows_bind (follows_primary? hi around within) fun found c within => ?_)
  cases found with
  | none => exact follows_pure within _
  | some head =>
    refine follows_bind (follows_repeated within fun c within => follows_peek fun ch next => ?_) fun _ _ within =>
      follows_bind (follows_spanFrom within _) fun _ _ within => follows_pure within _
    refine follows_ite (fun opens => ?_) fun _ => follows_pure within _
    exact follows_bind (follows_bracket hi (next.trans (eq_of_beq opens))) fun _ _ within => follows_pure within _

/-- A word. -/
theorem follows_compound (around : Surroundings) (within : c.offset < bound) :
    Follows bound c (@compound (.below bound) limit i around) (compound limit i' around) := by
  refine follows_offset (follows_bind (follows_repeated within fun c within => ?_) fun _ _ within =>
    follows_bind (follows_spanFrom within _) fun _ _ within => follows_pure within _)
  refine follows_bind (follows_indexing? hi around within) fun found c within => ?_
  cases found <;> exact follows_pure within _

/-! ## Forms -/

/-- An assignment without spaces, if there is one. -/
theorem follows_compactAssignment? (within : c.offset < bound) :
    Follows bound c (@compactAssignment? (.below bound) limit i) (compactAssignment? limit i') := by
  refine follows_offset (follows_peek fun ch next => ?_)
  cases ch with
  | none => exact follows_pure within _
  | some ch =>
    refine follows_second fun second => follows_ite (fun _ => follows_pure within _) fun _ => ?_
    refine follows_bind (follows_indexing? hi _ within) fun found c within => ?_
    cases found with
    | none => exact follows_pure within _
    | some left =>
      refine follows_peek fun ch next => follows_ite (fun _ => follows_pure within _) fun sign => ?_
      simp only [Bool.or_eq_true, bne_iff_ne, not_or] at sign
      refine follows_bind (follows_advance (next.trans (Decidable.of_not_not sign.2))) fun _ _ within => ?_
      exact follows_bind (follows_compound hi _ within) fun _ _ within =>
        follows_bind (follows_spanFrom within _) fun _ _ within => follows_pure within _

/-- The assignments at the start of a form. -/
theorem follows_compactAssignments (within : c.offset < bound) :
    Follows bound c (@compactAssignments (.below bound) limit i) (compactAssignments limit i') := by
  refine follows_bind (follows_repeated within fun c within => ?_) fun found c within => ?_
  · refine follows_bind (follows_attempt within (follows_compactAssignment? hi within)) fun found c within => ?_
    cases found with
    | none => exact follows_pure within _
    | some assignment =>
      refine follows_bind follows_skipSpaces fun _ c within => follows_bind (follows_atFormEnd within) fun ended c within => ?_
      exact follows_ite (fun _ => follows_pure within _) fun _ => follows_pure within _
  · refine follows_ite (fun _ => follows_pure within _) fun _ => ?_
    refine follows_bind follows_skipSpaces fun _ c within => follows_bind (follows_atFormEnd within) fun ended c within => ?_
    exact follows_ite (fun _ => follows_pure within _) fun _ => follows_offset (follows_failAt _ _)

theorem follows_commandForm (within : c.offset < bound) :
    Follows bound c (@commandForm (.below bound) limit i) (commandForm limit i') := by
  refine follows_offset (follows_bind (follows_compound hi _ within) fun head c within => ?_)
  refine follows_ite (fun _ => follows_unexpected) fun _ => ?_
  refine follows_bind (follows_repeated within fun c within => ?_) fun args c within => ?_
  · refine follows_bind follows_skipSpaces fun _ c within => follows_bind (follows_atFormEnd within) fun ended c within => ?_
    refine follows_ite (fun _ => follows_pure within _) fun _ => ?_
    refine follows_bind (follows_compound hi _ within) fun arg c within => ?_
    exact follows_ite (fun _ => follows_unexpected) fun _ => follows_pure within _
  · dsimp only
    split
    · split
      · split
        · exact follows_pure within _
        · exact follows_failAt _ _
      · exact follows_pure within _
    · exact follows_pure within _

/-- A form is assignments or a command. -/
theorem follows_form (within : c.offset < bound) :
    Follows bound c (@form (.below bound) limit i) (form limit i') := by
  refine follows_offset (follows_bind (follows_compactAssignments hi within) fun found c within => ?_)
  cases found with
  | nil => exact follows_commandForm hi within
  | cons => exact follows_pure within _

theorem follows_pipeline (within : c.offset < bound) :
    Follows bound c (@pipeline (.below bound) limit i) (pipeline limit i') := by
  refine follows_offset (follows_bind (follows_form hi within) fun first c within => ?_)
  refine follows_bind (follows_repeated within fun c within => ?_) fun _ _ within => follows_pure within _
  refine follows_bind follows_skipSpaces fun _ c within => follows_peek fun ch next => ?_
  refine follows_ite (fun pipe => ?_) fun _ => follows_pure within _
  refine follows_bind (follows_advance (next.trans (eq_of_beq pipe))) fun _ c within => ?_
  exact follows_bind (follows_skipBlank within) fun _ c within =>
    follows_bind (follows_form hi within) fun _ _ within => follows_pure within _

/-- **Code agrees with bounded offsets as long as the bound is not reached.** -/
theorem follows_chunk (closer : Option Char) (within : c.offset < bound) :
    Follows bound c (@chunk (.below bound) limit i closer) (chunk limit i' closer) := by
  refine follows_offset (follows_bind (follows_repeated within fun c within => ?_) fun _ _ within =>
    follows_bind (follows_spanFrom within _) fun _ _ within => follows_pure within _)
  refine follows_bind (follows_skipSeparators within) fun _ c within => follows_peek fun ch next => ?_
  cases ch with
  | none => exact follows_pure within _
  | some ch =>
    refine follows_ite (fun _ => follows_pure within _) fun _ => follows_ite (fun _ => follows_unexpected) fun _ => ?_
    refine follows_bind (follows_pipeline hi within) fun found c within => ?_
    refine follows_bind follows_skipSpaces fun _ c within => follows_bind (follows_skipComment within) fun _ c within => ?_
    refine follows_peek fun ch next => ?_
    cases ch with
    | none => exact follows_pure within _
    | some ch =>
      refine follows_ite (fun _ => follows_pure within _) fun _ => ?_
      exact follows_ite (fun _ => follows_pure within _) fun _ => follows_unexpected

end

/-! ## Whole texts -/

/-- What is inside delimiters follows, level by level. -/
theorem follows_inner (bound limit depth : Nat) : (@inner (.below bound) limit depth).Follows bound (inner limit depth) := by
  induction depth with
  | zero => exact ⟨fun _ _ _ => follows_throw _, fun _ _ _ => follows_throw _⟩
  | succ depth ih =>
    exact ⟨fun closer _ within => follows_chunk ih closer within, fun around _ within => follows_compound ih around within⟩

/-- **A whole text with bounded offsets.** -/
theorem follows_unit {bound limit : Nat} {c : Cursor} (within : c.offset < bound) :
    Follows bound c (@unit (.below bound) limit) (unit limit) := by
  refine follows_bind (follows_chunk (follows_inner bound limit limit) none within) fun found c within => ?_
  exact follows_peek fun ch next => follows_ite (fun _ => follows_unexpected) fun _ => follows_pure within _

/-- A whole text is read to its end. -/
theorem unit_ok_rest {offsets : Offsets} {limit : Nat} {c c' : Cursor} {found : Chunk} (read : unit limit c = .ok (found, c')) :
    c'.rest = [] := by
  obtain ⟨found, c₁, -, read⟩ := run_bind_ok read
  obtain ⟨next, here, read⟩ := run_peek read
  cases next with
  | none =>
    obtain ⟨-, rfl⟩ := run_pure_ok read
    exact List.head?_eq_none_iff.mp here
  | some ch =>
    obtain ⟨_, _, read⟩ := run_peek (run_offset read)
    split at read <;> exact nomatch read

end Grammar

section

open Grammar TextReader

variable {code : String}

/-- **Code with fewer than 2^32 bytes is read as with offsets of any size.** -/
theorem readChunk_agrees (short : byteLength code.toList < UInt32.size) :
    Agree (byteLength code.toList + 1 < UInt32.size) (readChunk code)
      ((unit (code.toList.length + 1) (Cursor.start code.toList)).map Prod.fst) := by
  have total : (Cursor.start code.toList).total = byteLength code.toList := Nat.zero_add _
  have followed : Follows UInt32.size (Cursor.start code.toList) (@unit .word (code.toList.length + 1))
      (unit (code.toList.length + 1)) := follows_unit (show 0 < UInt32.size by decide)
  have agreed := followed.agrees (by rwa [total])
  rw [total] at agreed
  rcases agreed with same | ⟨loose, e, e', failed, failed'⟩
  · exact .inl (congrArg (Except.map Prod.fst) same)
  · exact .inr ⟨loose, e, e', congrArg (Except.map Prod.fst) failed, congrArg (Except.map Prod.fst) failed'⟩

/-- If the number after its end is good as well, so is every problem. -/
theorem readChunk_eq (short : byteLength code.toList + 1 < UInt32.size) :
    readChunk code = (unit (code.toList.length + 1) (Cursor.start code.toList)).map Prod.fst := by
  rcases readChunk_agrees (Nat.lt_of_succ_lt short) with same | ⟨loose, -⟩
  · exact same
  · exact absurd short loose

/-- What is read has come to the end of the code before the bound. -/
theorem short_of_readChunk {chunk : Chunk} (read : readChunk code = .ok chunk) :
    byteLength code.toList < UInt32.size := by
  change (@unit .word (code.toList.length + 1) (Cursor.start code.toList)).map Prod.fst = _ at read
  rcases run : @unit .word (code.toList.length + 1) (Cursor.start code.toList) with stop | ⟨found, c⟩
  · rw [run] at read
    exact nomatch read
  · have followed : Follows UInt32.size (Cursor.start code.toList) (@unit .word (code.toList.length + 1))
        (unit (code.toList.length + 1)) := follows_unit (show 0 < UInt32.size by decide)
    obtain ⟨within, total⟩ := followed.stays run
    have rest : c.rest = [] := unit_ok_rest run
    rw [Cursor.total, rest] at total
    have whole : c.offset = byteLength code.toList := total.trans (Nat.zero_add _)
    omega

/-- Code that is longer is not read. -/
theorem readChunk_ne_ok (long : UInt32.size ≤ byteLength code.toList) (chunk : Chunk) : readChunk code ≠ .ok chunk :=
  fun read => Nat.not_lt_of_le long (short_of_readChunk read)

/-- **What is read**: code with fewer than 2^32 bytes, as with offsets of any size. -/
theorem readChunk_ok_iff {chunk : Chunk} : readChunk code = .ok chunk ↔
    byteLength code.toList < UInt32.size ∧
      ∃ c, unit (code.toList.length + 1) (Cursor.start code.toList) = .ok (chunk, c) := by
  constructor
  · intro read
    have short := short_of_readChunk read
    refine ⟨short, ?_⟩
    rcases readChunk_agrees short with same | ⟨-, e, e', failed, -⟩
    · rw [read] at same
      rcases run : unit (code.toList.length + 1) (Cursor.start code.toList) with stop | ⟨found, c⟩
      · rw [run] at same
        exact nomatch same
      · rw [run] at same
        cases same
        exact ⟨c, rfl⟩
    · rw [failed] at read
      exact nomatch read
  · rintro ⟨short, c, run⟩
    have agreed := readChunk_agrees short
    rw [run] at agreed
    exact agreed.eq_ok

end

end ValueShell
