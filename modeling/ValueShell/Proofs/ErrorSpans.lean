/-
  Where a problem is reported.

  A problem carries a window of the code.  It is made from the cursor, at the place where reading stopped, and the
  cursor is a place of the code as long as it only moves past characters that are there.  That settles the
  bounds of the window, and nothing but the bounds is left for most problems.

  A missing closing delimiter is reported from the opening one, so there it has to be said which one that is:
  the construct that is read at the start of the window has no end (`Construct.Unclosed`).

  Two problems are reported elsewhere.  A string that ends with the backslash of an escape is left by a step past the
  end of the code (`AtLastBackslash`); and an unclosed list is reported from the character before its first item,
  which is the opening bracket only if no blanks and no comments follow the bracket (`PastBracket`).

  `Answers` follows a reader forwards and says what comes of it: a result that the cursor has moved to, or a problem; it
  is never a limit that was run into.  For that every round of a repetition has to get nearer to the end of the
  code, and so has everything that opens a bracket.
-/
import ValueShell.Proofs.ExactSpans
import ValueShell.Proofs.ReaderLimits

namespace ValueShell

open TextReader Reader Grammar

/-! ## Windows of problems -/

/-- The delimiter that opens a construct. -/
def Construct.opener : Construct → Char
  | outputCapture => '('
  | list | index | map => '['
  | lambda | bracedList => '{'
  | singleQuoted => '\''
  | doubleQuoted => '"'

/-- Reads a construct at its opening delimiter. -/
def Construct.read (limit : Nat) (inner : Inner) : Construct → Reader Unit
  | index => do
    let _ ← bracket limit inner
  | lambda => do
    let _ ← lambdaBody inner
  | _ => do
    let _ ← primary? limit inner .plain

/-- What may stand inside a delimiter of the given code. -/
abbrev Grammar.innermost (code : List Char) : Inner := Grammar.inner (code.length + 1) (code.length + 1)

/-- **A construct without an end**: it opens after `before`, and reading it from there comes to the given
problem. -/
def Construct.Unclosed (code : List Char) (what : Construct) (before : List Char)
    (error : ParseError) : Prop :=
  ∃ after, code = before ++ what.opener :: after ∧
    what.read (code.length + 1) (innermost code) ⟨byteLength before, what.opener :: after⟩ =
      .error (.problem error)

/-- After blanks, line ends and comments. -/
def Cursor.pastBlank (c : Cursor) : Cursor := Cursor.skip isSpaceOrNewline false c.offset c.rest

namespace ParseError

/-- **A problem that is reported where it is**: the window lies in the code, between two character boundaries,
and a closing delimiter is missed from the opening one up to the end of the code. -/
structure Located (code : List Char) (error : ParseError) : Prop where
  ordered : error.span.start ≤ error.span.stop
  inside : error.span.stop ≤ byteLength code
  starts : IsBoundary code error.span.start
  stops : IsBoundary code error.span.stop
  opening : ∀ what, error.problem = .unterminated what →
    ∃ before, what.Unclosed code before error ∧ error.span = ⟨byteLength before, byteLength code⟩

/-- The code ends with a backslash that starts an escape, and the window ends one past the end of the code. -/
def AtLastBackslash (code : List Char) (error : ParseError) : Prop :=
  ∃ before, code = before ++ ['\\'] ∧
    error = ⟨.invalidEscape, ⟨byteLength before, byteLength code + 1⟩⟩

/-- A list has no end, and the window starts one byte before what comes after the blanks and comments (`gap`) at the
start of the list. -/
def PastBracket (code : List Char) (error : ParseError) : Prop :=
  ∃ before gap after, code = before ++ '[' :: (gap ++ after) ∧ gap ≠ [] ∧
    Cursor.pastBlank ⟨byteLength before + 1, gap ++ after⟩ =
      ⟨byteLength before + 1 + byteLength gap, after⟩ ∧
    Construct.list.Unclosed code before error ∧
    error = ⟨.unterminated .list, ⟨byteLength before + byteLength gap, byteLength code⟩⟩

/-- Where a problem may be reported. -/
def Placed (code : List Char) (error : ParseError) : Prop :=
  error.Located code ∨ error.AtLastBackslash code ∨ error.PastBracket code

end ParseError

/-! ## What comes of a reader -/

section Nearer

variable {c c' : Cursor}

/-- What is left gets no longer. -/
theorem Cursor.Moves.length_le (h : c.Moves c') : c'.rest.length ≤ c.rest.length := by
  obtain ⟨text, passes⟩ := h
  rw [passes.rest, List.length_append]
  omega

/-- And it gets shorter past a letter that is there. -/
theorem Cursor.next_length {ch : Char} (h : c.rest.head? = some ch) :
    c.next.rest.length < c.rest.length := by
  rw [(passes_next h).rest]
  simp

end Nearer

section Rules

/-- What a reader comes to where a limit is not in the way. -/
theorem run_extended {ε α β : Type} {x y : TextReader ε α} {k : α → TextReader ε β} {c : Cursor}
    {error : ε} (h : Extends x y) (run : x c = .error (.problem error)) :
    (y >>= k) c = .error (.problem error) := by
  have same : y c = .error (.problem error) := by
    rw [h c (by rw [run]; exact nofun), run]
  change (y c).bind _ = _
  rw [same]
  rfl

variable {α β : Type} {P P' : ParseError → Prop} {c c' : Cursor}

/-- **What `x` comes to from `c`**: a result of which `post` holds, with the cursor moved past text that is
there, or a problem of which `P` holds. -/
def Reader.Answers (P : ParseError → Prop) (x : Reader α) (c : Cursor) (post : α → Cursor → Prop) : Prop :=
  match x c with
  | .ok (a, c') => c.Moves c' ∧ post a c'
  | .error (.problem error) => P error
  | .error .exhausted => False

variable {post post' : α → Cursor → Prop}

theorem Reader.Answers.found {x : Reader α} {a : α} (h : Answers P x c post)
    (run : x c = .ok (a, c')) : c.Moves c' ∧ post a c' := by
  unfold Answers at h
  rw [run] at h
  exact h

/-- A reader that fails does so with a problem, and the problem is as said: it runs into no limit. -/
theorem Reader.Answers.fails {x : Reader α} {stop : ReadStop ParseError} (h : Answers P x c post)
    (run : x c = .error stop) : ∃ error, stop = .problem error ∧ P error := by
  unfold Answers at h
  rw [run] at h
  cases stop with
  | problem error => exact ⟨error, rfl, h⟩
  | exhausted => exact h.elim

/-- Every run comes to a result or to a problem. -/
theorem answers_of {x : Reader α} (found : ∀ a c', x c = .ok (a, c') → c.Moves c' ∧ post a c')
    (fails : ∀ stop, x c = .error stop → ∃ error, stop = .problem error ∧ P error) :
    Answers P x c post := by
  unfold Answers
  rcases run : x c with stop | ⟨a, c'⟩
  · obtain ⟨error, rfl, holds⟩ := fails stop run
    exact holds
  · exact found a c' run

/-- Every problem that the reader can come to is one of those that `P'` allows. -/
theorem Reader.Answers.turn {x : Reader α} (h : Answers P x c post)
    (problems : ∀ e, x c = .error (.problem e) → P e → P' e) : Answers P' x c post := by
  refine answers_of (fun a c' run => h.found run) fun stop run => ?_
  obtain ⟨error, rfl, holds⟩ := h.fails run
  exact ⟨error, rfl, problems error run holds⟩

/-- Less may be said of the problems, and of the results once the cursor has moved. -/
theorem Reader.Answers.mono {x : Reader α} (h : Answers P x c post) (problems : ∀ e, P e → P' e)
    (results : ∀ a c', c.Moves c' → post a c' → post' a c') : Answers P' x c post' := by
  refine answers_of (fun a c' run => ?_) fun stop run => ?_
  · obtain ⟨moves, holds⟩ := h.found run
    exact ⟨moves, results a c' moves holds⟩
  · obtain ⟨error, rfl, holds⟩ := h.fails run
    exact ⟨error, rfl, problems error holds⟩

/-- Nothing is read, and the cursor stays. -/
theorem answers_pure {a : α} (h : post a c) : Answers P (pure a) c post := ⟨.refl c, h⟩

/-- What comes next starts where the cursor has moved to. -/
theorem answers_moved {x : Reader α} (moves : c.Moves c') (h : Answers P x c' post)
    {y : Reader α} (same : y c = x c') : Answers P y c post := by
  refine answers_of (fun a c'' run => ?_) fun stop run => ?_
  · obtain ⟨later, holds⟩ := h.found (same.symm.trans run)
    exact ⟨moves.trans later, holds⟩
  · exact h.fails (same.symm.trans run)

/-- **One reader after the other**; the second starts where the first has moved the cursor. -/
theorem answers_bind {x : Reader α} {k : α → Reader β} {mid : α → Cursor → Prop}
    {post : β → Cursor → Prop} (first : Answers P x c mid)
    (later : ∀ a c', x c = .ok (a, c') → c.Moves c' → mid a c' → Answers P (k a) c' post) :
    Answers P (x >>= k) c post := by
  -- the second reader is only there if the first has found something
  rcases run : x c with stop | ⟨a, c'⟩
  · refine answers_of (fun b c'' ok => ?_) fun stop' failed => ?_
    · obtain ⟨a, c', ok, -⟩ := run_bind_ok ok
      exact nomatch run.symm.trans ok
    · have same : (x >>= k) c = .error stop := by
        change (x c).bind _ = _
        rw [run]
        rfl
      obtain rfl : stop = stop' := Except.error.inj (same.symm.trans failed)
      exact first.fails run
  · obtain ⟨moves, holds⟩ := first.found run
    exact answers_moved moves (later a c' run moves holds) (run_bind run)

/-- The offset is that of the cursor. -/
theorem answers_offset {k : Nat → Reader α} (h : Answers P (k c.offset) c post) :
    Answers P (offset >>= k) c post := h

/-- What comes next is the first letter of what is left. -/
theorem answers_peek {k : Option Char → Reader α} (h : Answers P (k c.rest.head?) c post) :
    Answers P (peek? >>= k) c post := h

theorem answers_second {k : Option Char → Reader α} (h : Answers P (k c.rest.tail.head?) c post) :
    Answers P (second? >>= k) c post := h

/-- A span ends at the cursor. -/
theorem answers_spanFrom {start : Nat} {k : Span → Reader α}
    (h : Answers P (k ⟨start, c.offset⟩) c post) : Answers P (spanFrom start >>= k) c post := h

/-- To move by one letter, there has to be one. -/
theorem answers_advance {k : Unit → Reader α} {ch : Char} (hc : c.rest.head? = some ch)
    (h : Answers P (k ()) c.next post) : Answers P (advance >>= k) c post :=
  answers_moved (Cursor.passes_next hc).moves h rfl

/-- Who starts by moving past a character ends nearer to the end of the text. -/
theorem answers_past {k : Unit → Reader α} {ch : Char} (hc : c.rest.head? = some ch)
    (h : Answers P (k ()) c.next fun _ _ => True) :
    Answers P (advance >>= k) c fun _ c' => c'.rest.length < c.rest.length := by
  have shorter := Cursor.next_length hc
  have nearer : Answers P (k ()) c.next fun _ c' => c'.rest.length < c.rest.length := by
    refine h.mono (fun _ holds => holds) fun _ c' moves _ => ?_
    have := moves.length_le
    omega
  exact answers_advance hc nearer

/-- The end of a step that moved past a character. -/
theorem answers_advance_pure {a : α} {ch : Char} (hc : c.rest.head? = some ch) (h : post a c.next) :
    Answers P (advance >>= fun _ => pure a) c post := answers_advance hc (answers_pure h)

/-- A run of letters is taken as far as it goes. -/
theorem answers_munch {p : Char → Bool} {k : List Char → Reader α}
    (h : Answers P (k (c.rest.takeWhile p)) (c.dropWhile p) post) :
    Answers P (munch p >>= k) c post :=
  answers_moved (Cursor.passes_dropWhile p c).moves h rfl

theorem Cursor.moves_pastBlank (c : Cursor) : c.Moves c.pastBlank := moves_skip _ _ _ _

/-- To skip blanks moves to a known place. -/
theorem answers_skipBlank_to {k : PUnit → Reader α} (h : Answers P (k ⟨⟩) c.pastBlank post) :
    Answers P (skipBlank >>= k) c post :=
  answers_moved c.moves_pastBlank h rfl

/-- Where that is, need not be said. -/
theorem answers_skipBlank {k : PUnit → Reader α}
    (h : ∀ c₁, c.Moves c₁ → Answers P (k ⟨⟩) c₁ post) : Answers P (skipBlank >>= k) c post :=
  answers_skipBlank_to (h _ c.moves_pastBlank)

theorem answers_skipSeparators {k : PUnit → Reader α}
    (h : ∀ c₁, c.Moves c₁ → Answers P (k ⟨⟩) c₁ post) : Answers P (skipSeparators >>= k) c post :=
  have moves := Cursor.moves_skip (fun c => isSpaceOrNewline c || c == ';') false c.offset c.rest
  answers_moved moves (h _ moves) rfl

theorem answers_skipSpaces {k : PUnit → Reader α}
    (h : ∀ c₁, c.Moves c₁ → Answers P (k ⟨⟩) c₁ post) : Answers P (skipSpaces >>= k) c post :=
  have moves := (Cursor.passes_dropWhile isSpace c).moves
  answers_moved moves (h _ moves) rfl

/-- A comment is skipped up to its newline, or to the end of the code. -/
theorem answers_skipComment {k : PUnit → Reader α}
    (h : ∀ c₁, c.Moves c₁ → Answers P (k ⟨⟩) c₁ post) : Answers P (skipComment >>= k) c post := by
  obtain ⟨c₁, moves, same⟩ := run_skipComment (c := c) (k := k) rfl
  exact answers_moved moves (h c₁ moves) same.symm

/-- To ask whether a form ends here moves nothing. -/
theorem answers_atFormEnd {k : Bool → Reader α} (h : ∀ ended, Answers P (k ended) c post) :
    Answers P (atFormEnd >>= k) c post := by
  obtain ⟨ended, same⟩ := run_atFormEnd (c := c) (k := k) rfl
  exact answers_moved (.refl c) (h ended) same.symm

/-- A problem with its span is what is reported. -/
theorem answers_failAt {problem : ParseProblem} {span : Span} (h : P ⟨problem, span⟩) :
    Answers P (failAt problem span) c post := h

/-- A problem is reported from where the construct started, up to the cursor. -/
theorem answers_failFrom {start : Nat} {problem : ParseProblem} (h : P ⟨problem, ⟨start, c.offset⟩⟩) :
    Answers P (failFrom start problem) c post := h

/-- An attempt is undone where it finds nothing, whatever the problem was. -/
theorem answers_attempt {x : Reader (Option α)} {mid : α → Cursor → Prop} (h : Answers P' x c
    fun found c' => ∀ a ∈ found, mid a c') :
    Answers P (attempt x) c fun found c' => ∀ a ∈ found, mid a c' := by
  unfold Answers attempt
  rcases run : x c with stop | ⟨_ | a, c'⟩
  -- a problem, nothing found, something found
  · obtain ⟨error, rfl, -⟩ := h.fails run
    exact ⟨.refl c, nofun⟩
  · exact ⟨.refl c, nofun⟩
  · exact h.found run

/-- A round that asks for another one has come nearer to the end of the text. -/
def Round.Nearer (c c' : Cursor) : Round α → Prop
  | .stop | .last _ => True
  | .more _ => c'.rest.length < c.rest.length

/-- **Repetitions come to an end**: with more rounds than characters left the limit is not reached. -/
theorem answers_repeated {Q : Cursor → List α → Cursor → Prop} {round : Reader (Round α)} {limit : Nat}
    (enough : c.rest.length < limit)
    (one : ∀ c₁, c.Moves c₁ → Answers P round c₁ fun r c₂ => Adds Q c₁ c₂ r ∧ r.Nearer c₁ c₂) :
    Answers P (repeated limit round) c (Q c) := by
  suffices ∀ limit found c₁, c.Moves c₁ → c₁.rest.length < limit →
      Answers P (repeatedOnto round limit found) c₁ fun items c' =>
        ∃ new, items = found.reverse ++ new ∧ Q c₁ new c' by
    refine (this limit [] c (.refl c) enough).mono (fun _ holds => holds) ?_
    rintro items c' - ⟨new, rfl, holds⟩
    exact holds
  -- on the number of rounds left, with the items that are found already
  intro limit
  induction limit with
  | zero => exact fun _ _ _ enough => absurd enough (Nat.not_lt_zero _)
  | succ limit ih =>
    intro found c₁ here enough
    refine answers_bind (one c₁ here) fun r c₂ _ moves ⟨adds, nearer⟩ => ?_
    cases r with
    | stop => exact answers_pure ⟨[], (List.append_nil _).symm, adds⟩
    | last item => exact answers_pure ⟨[item], List.reverse_cons, adds⟩
    | more item =>
      have left : c₂.rest.length < limit := by
        have : c₂.rest.length < c₁.rest.length := nearer
        omega
      refine (ih (item :: found) c₂ (here.trans moves) left).mono (fun _ holds => holds) ?_
      rintro items c' - ⟨new, rfl, holds⟩
      refine ⟨item :: new, ?_, adds new c' holds⟩
      rw [List.reverse_cons, List.append_assoc]
      rfl

end Rules

/-! ## Places of problems -/

section Places

variable {code : List Char} {c c' : Cursor}

/-- What is left is a part of the code. -/
theorem Cursor.At.length_le (here : c.At code) : c.rest.length ≤ code.length := by
  obtain ⟨before, rfl, -⟩ := here
  simp

/-- Where nothing is left, the cursor is at the end of the code. -/
theorem Cursor.At.ended (here : c.At code) (h : c.rest.head? = none) : c.offset = byteLength code := by
  obtain ⟨before, rfl, offset⟩ := here
  rw [List.head?_eq_none_iff.mp h, List.append_nil, offset]

namespace ParseError

/-- A window between two boundaries, for a problem that misses no delimiter. -/
theorem placed_of_boundaries {error : ParseError} (starts : IsBoundary code error.span.start)
    (stops : IsBoundary code error.span.stop) (ordered : error.span.start ≤ error.span.stop)
    (other : ∀ what, error.problem ≠ .unterminated what) : error.Placed code :=
  .inl ⟨ordered, stops.le, starts, stops, fun what missing => absurd missing (other what)⟩

/-- A problem about everything from an earlier place to the cursor. -/
theorem placed_from {problem : ParseProblem} {start : Cursor} (there : start.At code)
    (moves : start.Moves c) (other : ∀ what, problem ≠ .unterminated what) :
    Placed code ⟨problem, ⟨start.offset, c.offset⟩⟩ :=
  placed_of_boundaries there.boundary (there.moves moves).boundary moves.le other

/-- A node that something is wrong with. -/
theorem placed_node {problem : ParseProblem} {n : Node} (h : n.Whole code)
    (other : ∀ what, problem ≠ .unterminated what) : Placed code ⟨problem, n.span⟩ :=
  placed_of_boundaries h.exact.starts h.exact.stops h.exact.ordered other

end ParseError

/-- A letter that fits nowhere is reported where it stands, and the end of the code at the end. -/
theorem answers_unexpected {α : Type} {P : ParseError → Prop} {post : α → Cursor → Prop}
    (here : c.At code) (problems : ∀ e, e.Placed code → P e) : Answers P unexpected c post := by
  refine answers_offset (answers_peek ?_)
  cases hc : c.rest.head? with
  -- the window is empty at the end of the code, and the next character before it
  | none =>
    refine answers_failAt (problems _ ?_)
    exact ParseError.placed_from here (.refl c) nofun
  | some ch =>
    refine answers_failAt (problems _ ?_)
    have passes := Cursor.passes_next hc
    have stop : c.offset + ch.utf8Size = c.next.offset := by
      rw [passes.offset]
      rfl
    rw [stop]
    exact ParseError.placed_from here passes.moves nofun

end Places

/-! ## Strings and names -/

section Strings

variable {code : List Char} {c : Cursor} {limit : Nat}

/-- The problem is placed, or it is that the construct that starts at `start` has no end. -/
def ParseError.Missing (code : List Char) (what : Construct) (start : Nat) (error : ParseError) : Prop :=
  error.Placed code ∨ error = ⟨.unterminated what, ⟨start, byteLength code⟩⟩

/-- A problem that is placed is no missing delimiter. -/
theorem ParseError.Placed.missing {what : Construct} {start : Nat} (error : ParseError)
    (h : error.Placed code) : error.Missing code what start := .inl h

/-- The code ends before a construct does. -/
theorem answers_missing {α : Type} {post : α → Cursor → Prop} {what : Construct} {start : Nat}
    (here : c.At code) (ended : c.rest.head? = none) :
    Answers (ParseError.Missing code what start) (failFrom start (.unterminated what)) c post := by
  refine answers_failFrom (.inr ?_)
  rw [here.ended ended]

/-- What remains to be read is the closing delimiter; if it is missing, the code has ended. -/
theorem answers_closeWith {closer : Char} {what : Construct} {start : Nat} (here : c.At code)
    (ends : c.rest.head? = none ∨ c.rest.head? = some closer) :
    Answers (ParseError.Missing code what start) (closeWith closer what start) c fun _ _ => True := by
  refine answers_peek ?_
  split
  · next closed =>
    have there : c.rest.head? = some closer := eq_of_beq closed
    exact ⟨(Cursor.passes_next there).moves, trivial⟩
  · next other =>
    rcases ends with ended | closed
    · exact answers_missing here ended
    · exact absurd (beq_iff_eq.mpr closed) other

/-- The digits of an escape: a problem reaches from the backslash up to the cursor. -/
theorem answers_codePoint {start : Cursor} (there : start.At code) (moves : start.Moves c)
    (base digits acc : Nat) :
    Answers (ParseError.Placed code) (codePoint start.offset base digits acc) c fun _ _ => True := by
  -- on the number of digits that are left
  induction digits generalizing acc c with
  | zero => exact answers_pure trivial
  | succ digits ih =>
    refine answers_peek ?_
    cases digit : c.rest.head?.bind (Numeral.digit? base) with
    | none => exact answers_failFrom (ParseError.placed_from there moves nofun)
    | some d =>
      obtain ⟨ch, hc, -⟩ := Option.bind_eq_some_iff.mp digit
      exact answers_advance hc (ih (moves.trans (Cursor.passes_next hc).moves) _)

/-- An escape is more than its backslash, or there is nothing after the backslash. -/
theorem answers_escape (here : c.At code) (hc : c.rest.head? = some '\\') :
    Answers (ParseError.Placed code) escape c fun _ c' => c'.rest.length < c.rest.length := by
  have backslash := (Cursor.passes_next hc).moves
  have shorter := Cursor.next_length hc
  refine answers_offset (answers_advance hc (answers_peek ?_))
  dsimp only
  cases hn : c.next.rest.head? with
  | none =>
    -- the step past the end
    have ended : c.next.rest = [] := List.head?_eq_none_iff.mp hn
    have next : c.next = ⟨c.next.offset, []⟩ := by rw [← ended]
    obtain ⟨before, split, offset⟩ := here
    have passed := Cursor.passes_next hc
    rw [passed.rest, ended] at split
    refine .inr (.inl ⟨before, split, ?_⟩)
    have stop : c.next.next.offset = byteLength code + 1 := by
      rw [next, split, byteLength_append, ← offset]
      exact congrArg (· + 1) passed.offset
    rw [← stop, ← offset]
  -- the eight escapes of one letter, the hexadecimal and the octal ones, and any other letter
  | some ch =>
    have two := Cursor.next_length hn
    split
    iterate 8 exact answers_advance_pure hn (Nat.lt_trans two shorter)
    · refine answers_advance hn ?_
      have digits := answers_codePoint here (backslash.trans (Cursor.passes_next hn).moves) 16 2 0
      refine digits.mono (fun _ placed => placed) fun _ c' moves _ => ?_
      have := moves.length_le
      omega
    · split
      · have digits := answers_codePoint here backslash 8 3 0
        refine digits.mono (fun _ placed => placed) fun _ c' moves _ => ?_
        have := moves.length_le
        omega
      · refine answers_advance hn (answers_failFrom ?_)
        exact ParseError.placed_from here (backslash.trans (Cursor.passes_next hn).moves) nofun

/-- Rounds of which each one only has to get nearer to the end. -/
theorem answers_rounds {α : Type} {P : ParseError → Prop} {round : Reader (Round α)}
    (enough : c.rest.length < limit)
    (one : ∀ c₁, c.Moves c₁ → Answers P round c₁ fun r c₂ => r.Nearer c₁ c₂) :
    Answers P (repeated limit round) c fun _ _ => True := by
  refine answers_repeated (Q := fun _ _ _ => True) enough fun c₁ moves => ?_
  refine (one c₁ moves).mono (fun _ holds => holds) fun r c₂ _ nearer => ⟨?_, nearer⟩
  cases r with
  | stop => exact trivial
  | last item => exact trivial
  | more item => exact fun _ _ _ => trivial

/-- A single-quoted text: each round takes a letter or a doubled quote, or the code ends. -/
theorem answers_singleQuoted (here : c.At code) (hc : c.rest.head? = some '\'')
    (enough : c.rest.length < limit) :
    Answers (ParseError.Missing code .singleQuoted c.offset) (singleQuoted limit) c fun _ c' =>
      c'.rest.length < c.rest.length := by
  have quote := (Cursor.passes_next hc).moves
  have shorter := Cursor.next_length hc
  refine answers_offset (answers_past hc (answers_bind (answers_rounds (by omega) ?_)
    fun _ _ _ _ _ => answers_pure trivial))
  -- the end of the code; a quote, which ends the text unless there are two of them; any other character
  intro c₁ moves
  have there := here.moves (quote.trans moves)
  refine answers_peek ?_
  split
  · next ended => exact answers_missing there ended
  · next hq =>
    refine answers_advance hq (answers_peek ?_)
    split
    · next second =>
      have both := Cursor.next_length (eq_of_beq second)
      have one := Cursor.next_length hq
      exact answers_advance_pure (eq_of_beq second) (Nat.lt_trans both one)
    · exact answers_pure trivial
  · next ch hch => exact answers_advance_pure hch (Cursor.next_length hch)

/-- A double-quoted text: each round takes a letter or an escape, or the code ends. -/
theorem answers_doubleQuoted (here : c.At code) (hc : c.rest.head? = some '"')
    (enough : c.rest.length < limit) :
    Answers (ParseError.Missing code .doubleQuoted c.offset) (doubleQuoted limit) c fun _ c' =>
      c'.rest.length < c.rest.length := by
  have quote := (Cursor.passes_next hc).moves
  have shorter := Cursor.next_length hc
  refine answers_offset (answers_past hc (answers_bind (answers_rounds (by omega) ?_)
    fun _ _ _ _ _ => answers_pure trivial))
  -- the end of the code, the closing quote, an escape, any other character
  intro c₁ moves
  have there := here.moves (quote.trans moves)
  refine answers_peek ?_
  split
  · next ended => exact answers_missing there ended
  · next hq => exact answers_advance_pure hq trivial
  · next hb =>
    refine answers_bind ((answers_escape there hb).mono ParseError.Placed.missing
      fun _ _ _ nearer => nearer) fun _ _ _ _ nearer => ?_
    exact answers_pure nearer
  · next ch hch => exact answers_advance_pure hch (Cursor.next_length hch)

/-- A variable without a name is reported from its dollar sign. -/
theorem answers_variableName (here : c.At code) (hc : c.rest.head? = some '$') :
    Answers (ParseError.Placed code) variableName c fun _ c' => c'.rest.length < c.rest.length := by
  have dollar := (Cursor.passes_next hc).moves
  -- the name after the sign, if there is one
  have name : ∀ (text : List Char → String) {c₁ : Cursor}, c.Moves c₁ →
      Answers (ParseError.Placed code) (munch isVariableChar >>= fun name =>
        if name.isEmpty then failFrom c.offset .emptyVariableName
        else return text name) c₁ fun _ _ => True := by
    intro text c₁ moves
    refine answers_munch ?_
    split
    · refine answers_failFrom (ParseError.placed_from here ?_ nofun)
      exact moves.trans (Cursor.passes_dropWhile _ _).moves
    · exact answers_pure trivial
  refine answers_offset (answers_past hc (answers_peek ?_))
  dsimp only
  split
  -- a sign between the dollar sign and the name, or none
  · next marked =>
    have sign : c.next.rest.head? = some '@' := eq_of_beq marked
    have word := name (fun rest => String.ofList ('@' :: rest))
      (dollar.trans (Cursor.passes_next sign).moves)
    exact answers_advance sign word
  · exact name String.ofList dollar

end Strings

/-! ## Opening delimiters -/

namespace Grammar

variable {limit o : Nat} {inner : Inner} {around : Surroundings} {after : List Char}

/-! A primary is read by what its first character is. -/

/-- What a parenthesis opens is a capture. -/
theorem primary?_parenthesis : primary? limit inner around ⟨o, '(' :: after⟩ =
    (do
      advance
      let chunk ← inner.chunk (some ')')
      closeWith ')' .outputCapture o
      return some (.capture chunk (← spanFrom o)) : Reader (Option Primary)) ⟨o, '(' :: after⟩ := rfl

/-- What a bracket opens is a list or a map. -/
theorem primary?_bracket : primary? limit inner around ⟨o, '[' :: after⟩ =
    (do
      return some (← bracketed limit inner o) : Reader (Option Primary)) ⟨o, '[' :: after⟩ := rfl

/-- What a brace opens is a lambda if a blank follows, and otherwise a list in braces. -/
theorem primary?_brace : primary? limit inner around ⟨o, '{' :: after⟩ =
    (if after.head?.any isSpaceOrNewline then do
        let body ← lambdaBody inner
        return some (.lambda [] body (← spanFrom o))
      else do
        let found ← bracedItems limit inner
        return some (.braced found (← spanFrom o)) : Reader (Option Primary)) ⟨o, '{' :: after⟩ := rfl

/-- What a quote opens is a text. -/
theorem primary?_quote : primary? limit inner around ⟨o, '\'' :: after⟩ =
    (do
      let text ← singleQuoted limit
      return some (.singleQuoted text (← spanFrom o)) : Reader (Option Primary)) ⟨o, '\'' :: after⟩ :=
  rfl

/-- What a double quote opens is a text with escapes. -/
theorem primary?_doubleQuote : primary? limit inner around ⟨o, '"' :: after⟩ =
    (do
      let text ← doubleQuoted limit
      return some (.doubleQuoted text (← spanFrom o)) : Reader (Option Primary)) ⟨o, '"' :: after⟩ :=
  rfl

end Grammar

/-! ## What is inside delimiters -/

/-- **What stands inside a delimiter comes to a result or to a placed problem**, where fewer than `room`
characters are left. -/
structure Grammar.Inner.Answers (code : List Char) (room : Nat) (inner : Inner) : Prop where
  chunk : ∀ (closer : Option Char) {c : Cursor}, c.At code → c.rest.length < room →
    Reader.Answers (ParseError.Placed code) (inner.chunk closer) c fun _ c' =>
      c'.rest.head? = none ∨ c'.rest.head? = closer
  compound : ∀ (around : Surroundings) {c : Cursor}, c.At code → c.rest.length < room →
    Reader.Answers (ParseError.Placed code) (inner.compound around) c fun found c' =>
      found.indexings.isEmpty = false → c'.rest.length < c.rest.length
  exact : inner.Exact code
  bounded : inner.Extends (innermost code)

section Grammar

variable {code : List Char} {room : Nat} {inner : Inner} (hinner : inner.Answers code room)
  {around : Surroundings} {c c' : Cursor}

/-- A construct that has no end where it is read has none. -/
theorem ParseError.Missing.placed (what : Construct) {error : ParseError} (here : c.At code)
    (hc : c.rest.head? = some what.opener)
    (read : what.read (code.length + 1) (innermost code) c = .error (.problem error))
    (h : error.Missing code what c.offset) : error.Placed code := by
  rcases h with placed | rfl
  · exact placed
  -- the rule for what is opened here is what does not come to an end
  · have start := here.boundary
    obtain ⟨before, split, offset⟩ := here
    obtain ⟨o, rest⟩ := c
    obtain ⟨after, rfl⟩ : ∃ after, rest = what.opener :: after :=
      ⟨_, (Cursor.passes_next hc).rest⟩
    obtain rfl : o = byteLength before := offset
    have stop : IsBoundary code (byteLength code) := ⟨code, [], (List.append_nil code).symm, rfl⟩
    refine .inl ⟨start.le, stop.le, start, stop, ?_⟩
    intro what' same
    obtain rfl : what = what' := ParseProblem.unterminated.inj same
    exact ⟨before, ⟨after, split, read⟩, rfl⟩

include hinner

/-- **The words up to a closing delimiter.**  If the code ends first, this is reported from one before the first
of them. -/
theorem answers_items (closer : Char) (what : Construct) (here : c.At code)
    (hroom : c.rest.length < room) :
    Answers (ParseError.Missing code what (c.offset - 1)) (items (code.length + 1) inner closer what) c
      fun _ _ => True := by
  have most := here.length_le
  refine answers_offset (answers_rounds (Nat.lt_succ_of_le most) ?_)
  intro c₁ moves
  refine answers_skipBlank fun c₂ blank => ?_
  have there := here.moves (moves.trans blank)
  have left := (moves.trans blank).length_le
  have skipped := blank.length_le
  refine answers_peek ?_
  split
  -- the end of the code, the closing delimiter, or one more word
  · next ended => exact answers_missing there ended
  · next ch hch =>
    split
    · exact answers_advance_pure hch trivial
    · refine answers_bind ((hinner.compound .plain there (by omega)).mono ParseError.Placed.missing
        fun _ _ _ nearer => nearer) fun item c₃ _ further nearer => ?_
      split
      · exact answers_unexpected (there.moves further) ParseError.Placed.missing
      · next some =>
        have := nearer (Bool.not_eq_true _ ▸ some)
        refine answers_pure ?_
        show c₃.rest.length < c₁.rest.length
        omega

/-- The body of a lambda, up to its brace. -/
theorem answers_lambdaBody (here : c.At code) (hc : c.rest.head? = some '{')
    (hroom : c.rest.length ≤ room) :
    Answers (ParseError.Placed code) (lambdaBody inner) c fun _ c' =>
      c'.rest.length < c.rest.length := by
  have brace := (Cursor.passes_next hc).moves
  have shorter := Cursor.next_length hc
  have missing : Answers (ParseError.Missing code .lambda c.offset) (lambdaBody inner) c
      fun _ c' => c'.rest.length < c.rest.length := by
    refine answers_offset (answers_past hc ?_)
    refine answers_bind ((hinner.chunk (some '}') (here.moves brace) (by omega)).mono
      ParseError.Placed.missing fun _ _ _ ends => ends) fun body c₁ _ moves ends => ?_
    have there := here.moves (brace.trans moves)
    exact answers_bind (answers_closeWith there ends) fun _ _ _ _ _ => answers_pure trivial
  -- with a limit that is not in the way the body is what it reads from the brace on
  refine missing.turn fun error run holds => ?_
  exact ParseError.Missing.placed .lambda here hc
    (run_extended (extends_lambdaBody hinner.bounded) run) holds

/-- An index, up to its bracket. -/
theorem answers_bracket (here : c.At code) (hc : c.rest.head? = some '[')
    (hroom : c.rest.length ≤ room) :
    Answers (ParseError.Placed code) (bracket (code.length + 1) inner) c fun _ c' =>
      c'.rest.length < c.rest.length := by
  have opening := Cursor.passes_next hc
  have shorter := Cursor.next_length hc
  have start : c.next.offset - 1 = c.offset := by
    rw [opening.offset]
    exact Nat.add_sub_cancel c.offset 1
  have missing : Answers (ParseError.Missing code .index c.offset)
      (bracket (code.length + 1) inner) c fun _ c' => c'.rest.length < c.rest.length := by
    refine answers_offset (answers_past hc ?_)
    have found := answers_items hinner ']' .index (here.passes opening) (by omega)
    rw [start] at found
    refine answers_bind found fun items c₁ _ _ _ => ?_
    exact answers_spanFrom (answers_pure trivial)
  refine missing.turn fun error run holds => ?_
  exact ParseError.Missing.placed .index here hc
    (run_extended (extends_bracket (Nat.le_refl _) hinner.bounded) run) holds

/-- The pairs of a map, up to its bracket. -/
theorem answers_mapPairs {start : Nat} (here : c.At code) (hroom : c.rest.length < room) :
    Answers (ParseError.Missing code .map start) (mapPairs (code.length + 1) inner start) c
      fun _ _ => True := by
  have most := here.length_le
  refine answers_rounds (Nat.lt_succ_of_le most) ?_
  intro c₁ moves
  refine answers_skipBlank fun c₂ blank => ?_
  have there := here.moves (moves.trans blank)
  have left := (moves.trans blank).length_le
  have skipped := blank.length_le
  refine answers_peek ?_
  split
  -- the end of the code, the bracket, a pair, or a character that starts none of them
  · next ended => exact answers_missing there ended
  · next closed => exact answers_advance_pure closed trivial
  · next pair =>
    have ampersand := (Cursor.passes_next pair).moves
    have shorter := Cursor.next_length pair
    refine answers_offset (answers_advance pair (answers_peek ?_))
    split
    -- the sign and the bracket are the empty map; otherwise a key, an equals sign and a value
    · next closed => exact answers_advance_pure (eq_of_beq closed) trivial
    · have key := hinner.compound .target (there.moves ampersand) (by omega)
      refine answers_bind (key.mono ParseError.Placed.missing fun _ _ _ nearer => nearer)
        fun key c₃ _ further nearer => answers_peek ?_
      have after := ampersand.trans further
      split
      · exact answers_failFrom (.inl (ParseError.placed_from there after nofun))
      · next equals =>
        have sign : c₃.rest.head? = some '=' := by
          simp only [Bool.or_eq_true, bne_iff_ne, ne_eq, not_or, Classical.not_not] at equals
          exact equals.2
        have one := (Cursor.passes_next sign).moves
        have less := Cursor.next_length sign
        have beyond := further.length_le
        refine answers_advance sign ?_
        have value := hinner.compound .plain (there.moves (after.trans one)) (by omega)
        refine answers_bind (value.mono ParseError.Placed.missing fun _ _ _ nearer => nearer)
          fun value c₄ _ valued _ => answers_spanFrom (answers_pure ?_)
        have last := valued.length_le
        show c₄.rest.length < c₁.rest.length
        omega
  · exact answers_unexpected there ParseError.Placed.missing

/-- A list in braces. -/
theorem answers_bracedItems (here : c.At code) (hc : c.rest.head? = some '{')
    (hroom : c.rest.length ≤ room) :
    Answers (ParseError.Missing code .bracedList c.offset) (bracedItems (code.length + 1) inner) c
      fun _ c' => c'.rest.length < c.rest.length := by
  have brace := (Cursor.passes_next hc).moves
  have shorter := Cursor.next_length hc
  have most := here.length_le
  refine answers_offset (answers_past hc (answers_rounds (by omega) ?_))
  intro c₁ moves
  refine answers_skipBlank fun c₂ blank => ?_
  have there := here.moves (brace.trans (moves.trans blank))
  have left := (moves.trans blank).length_le
  have skipped := blank.length_le
  have item := hinner.compound .braced there (by omega)
  refine answers_bind (item.mono ParseError.Placed.missing fun _ _ _ nearer => nearer)
    fun item c₃ _ further _ => answers_skipBlank fun c₄ blank' => answers_peek ?_
  have after := there.moves (further.trans blank')
  have beyond := (further.trans blank').length_le
  split
  -- after an item: one more, the closing brace, the end of the code, or what does not belong there
  · next comma =>
    have less := Cursor.next_length comma
    refine answers_advance_pure comma ?_
    show c₄.next.rest.length < c₁.rest.length
    omega
  · next closed => exact answers_advance_pure closed trivial
  · next ended => exact answers_missing after ended
  · exact answers_unexpected after ParseError.Placed.missing

omit hinner in
/-- A parameter that is no bareword is an item of the bracket. -/
theorem answers_params {start stop : Nat} {found : List Compound}
    (row : Node.Row code start stop (found.map Node.compound)) :
    Answers (ParseError.Placed code) (params found) c fun _ c' => c' = c := by
  induction found generalizing start with
  | nil => exact answers_pure rfl
  | cons item found ih =>
    have first : (Node.compound item).Whole code := row.whole _ List.mem_cons_self
    have rest : Node.Row code item.span.stop stop (found.map Node.compound) :=
      ⟨row.order.2.2, fun m hm => row.whole m (List.mem_cons_of_mem _ hm)⟩
    unfold params
    -- a parameter is a bareword, with or without a sign
    split
    · refine answers_bind (ih rest) fun later c₁ _ _ same => answers_pure same
    · exact answers_failAt (ParseError.placed_node first nofun)

/-- A bracket: whether it was to be a map or a list is known only once something has been read after it. -/
theorem answers_bracketed (here : c.At code) (hc : c.rest.head? = some '[')
    (hroom : c.rest.length ≤ room) :
    Answers (fun error => error.Missing code .map c.offset ∨
        error.Missing code .list (c.next.pastBlank.offset - 1))
      (bracketed (code.length + 1) inner c.offset) c fun _ c' => c'.rest.length < c.rest.length := by
  have opening := (Cursor.passes_next hc).moves
  have shorter := Cursor.next_length hc
  have blank := c.next.moves_pastBlank
  have there := here.moves (opening.trans blank)
  have left := blank.length_le
  refine answers_past hc (answers_skipBlank_to (answers_peek ?_))
  -- pairs, or items; and items with a lambda after them are parameters
  split
  · refine answers_bind ((answers_mapPairs hinner there (by omega)).mono (fun _ => .inl)
      fun _ _ _ h => h) fun pairs c₁ _ _ _ => ?_
    exact answers_spanFrom (answers_pure trivial)
  · refine answers_bind ((answers_items hinner ']' .list there (by omega)).mono (fun _ => .inr)
      fun _ _ _ h => h) fun found c₁ run moves _ => ?_
    have least := moves.length_le
    have after := there.moves moves
    refine answers_peek ?_
    split
    · next brace =>
      obtain ⟨-, row⟩ := items_ok hinner.exact there run
      refine answers_bind ((answers_params row).mono (fun _ placed => .inl (.inl placed))
        fun _ _ _ same => same) fun names c₂ _ _ same => ?_
      subst same
      refine answers_bind ((answers_lambdaBody hinner after (eq_of_beq brace) (by omega)).mono
        (fun _ placed => .inl (.inl placed)) fun _ _ _ h => h) fun body c₃ _ _ _ => ?_
      exact answers_spanFrom (answers_pure trivial)
    · exact answers_spanFrom (answers_pure trivial)

omit hinner in
/-- The list that has no end is the one that starts at the cursor, or its window starts past the bracket. -/
theorem ParseError.Missing.pastBracket {error : ParseError} (here : c.At code)
    (hc : c.rest.head? = some '[')
    (read : Construct.list.read (code.length + 1) (innermost code) c = .error (.problem error))
    (h : error.Missing code .list (c.next.pastBlank.offset - 1)) : error.Placed code := by
  have opening := Cursor.passes_next hc
  obtain ⟨gap, blank⟩ := c.next.moves_pastBlank
  have past : c.next.pastBlank.offset = c.offset + 1 + byteLength gap := by
    rw [← show c.next.offset = c.offset + 1 from opening.offset]
    exact blank.offset
  -- without blanks after the bracket, the window starts at the bracket
  by_cases none : gap = []
  · refine ParseError.Missing.placed .list here hc read ?_
    have start : c.next.pastBlank.offset - 1 = c.offset := by
      rw [past, none]
      rfl
    rw [start] at h
    exact h
  · rcases h with placed | rfl
    · exact placed
    · obtain ⟨before, split, offset⟩ := here
      obtain ⟨o, rest⟩ := c
      obtain rfl : o = byteLength before := offset
      obtain ⟨after, rfl⟩ : ∃ after, rest = '[' :: after := ⟨_, opening.rest⟩
      have start : Cursor.next ⟨byteLength before, '[' :: after⟩ = ⟨byteLength before + 1, after⟩ := rfl
      rw [start] at blank past
      rw [start] at read ⊢
      -- where the blanks end
      obtain ⟨⟨o, later⟩, ends⟩ : ∃ last, Cursor.pastBlank ⟨byteLength before + 1, after⟩ = last := ⟨_, rfl⟩
      rw [ends] at blank past
      rw [ends] at read ⊢
      obtain rfl : after = gap ++ later := blank.rest
      obtain rfl : o = byteLength before + 1 + byteLength gap := past
      refine .inr (.inr ⟨before, gap, later, split, none, ends, ⟨_, split, read⟩, ?_⟩)
      have window : byteLength before + 1 + byteLength gap - 1 = byteLength before + byteLength gap := by
        omega
      rw [window]

omit hinner in
/-- A bareword has no problems, and if there is one, something has been read. -/
theorem answers_bareword? : Answers (ParseError.Placed code) (bareword? around) c fun found c' =>
    found.isSome → c'.rest.length < c.rest.length := by
  refine answers_offset (answers_munch ?_)
  have word := Cursor.passes_dropWhile (isBarewordChar around) c
  split
  · exact answers_pure nofun
  · next some =>
    refine answers_spanFrom (answers_pure fun _ => ?_)
    have split := congrArg List.length word.rest
    rw [List.length_append] at split
    have : 0 < (c.rest.takeWhile (isBarewordChar around)).length := by
      rw [List.length_pos_iff]
      exact fun none => some (List.isEmpty_iff.mpr none)
    omega

/-- A problem of the primary that starts at the cursor: a placed one, or its own delimiter is missing. -/
def ParseError.OfPrimary (code : List Char) (c : Cursor) (error : ParseError) : Prop :=
  error.Placed code ∨
  (∃ what : Construct, what ≠ .index ∧ what ≠ .lambda ∧ c.rest.head? = some what.opener ∧
    error.Missing code what c.offset) ∨
  (c.rest.head? = some '[' ∧ error.Missing code .list (c.next.pastBlank.offset - 1))

omit hinner in
/-- What opens with a delimiter is read in the same way everywhere. -/
theorem primary?_opened {limit : Nat} {what : Construct} (around' : Surroundings)
    (hc : c.rest.head? = some what.opener) :
    primary? limit inner around c = primary? limit inner around' c := by
  obtain ⟨o, rest⟩ := c
  obtain ⟨after, rfl⟩ : ∃ after, rest = what.opener :: after := ⟨_, (Cursor.passes_next hc).rest⟩
  cases what with
  | outputCapture => exact primary?_parenthesis.trans primary?_parenthesis.symm
  | list | index | map => exact primary?_bracket.trans primary?_bracket.symm
  | lambda | bracedList => exact primary?_brace.trans primary?_brace.symm
  | singleQuoted => exact primary?_quote.trans primary?_quote.symm
  | doubleQuoted => exact primary?_doubleQuote.trans primary?_doubleQuote.symm

/-- If a primary fails that opens with a delimiter, then so does the rule for what it opens. -/
theorem read_of_primary? {what : Construct} {error : ParseError} (index : what ≠ .index)
    (lambda : what ≠ .lambda) (hc : c.rest.head? = some what.opener)
    (run : primary? (code.length + 1) inner around c = .error (.problem error)) :
    what.read (code.length + 1) (innermost code) c = .error (.problem error) := by
  have anywhere : primary? (code.length + 1) inner .plain c = .error (.problem error) := by
    rw [← run]
    exact primary?_opened around hc
  have bounded := run_extended (k := fun _ => (pure () : Reader Unit))
    (extends_primary? (Nat.le_refl (code.length + 1)) hinner.bounded .plain) anywhere
  cases what with
  | index => exact absurd rfl index
  | lambda => exact absurd rfl lambda
  | _ => exact bounded

/-- A problem of a primary is one of its own delimiters, or placed already. -/
theorem ofPrimary_primary? (here : c.At code) (hroom : c.rest.length ≤ room) :
    Answers (ParseError.OfPrimary code c) (primary? (code.length + 1) inner around) c fun found c' =>
      found.isSome → c'.rest.length < c.rest.length := by
  have enough : c.rest.length < code.length + 1 := Nat.lt_succ_of_le here.length_le
  -- the delimiter that the cursor is on may be the one that is not closed
  have own : ∀ (what : Construct) {e : ParseError}, what ≠ .index → what ≠ .lambda →
      c.rest.head? = some what.opener → e.Missing code what c.offset → e.OfPrimary code c :=
    fun _ _ index lambda hc missing => .inr (.inl ⟨_, index, lambda, hc, missing⟩)
  -- what was read is more than nothing
  have read : ∀ {α : Type} {x : Reader α} (node : α → Span → Primary),
      (Answers (ParseError.OfPrimary code c) x c fun _ c' => c'.rest.length < c.rest.length) →
      Answers (ParseError.OfPrimary code c) (x >>= fun a => spanFrom c.offset >>= fun s =>
        pure (some (node a s))) c fun found c' => found.isSome → c'.rest.length < c.rest.length :=
    fun _ h => answers_bind h fun _ _ _ _ nearer => answers_spanFrom (answers_pure fun _ => nearer)
  refine answers_offset (answers_peek ?_)
  split
  -- by the first character: none, quotes, a dollar sign, an opening delimiter, a bareword
  · exact answers_pure nofun
  · next hc =>
    exact read .singleQuoted ((answers_singleQuoted here hc enough).mono (fun _ => own .singleQuoted nofun nofun hc) fun _ _ _ h => h)
  · next hc =>
    exact read .doubleQuoted ((answers_doubleQuoted here hc enough).mono (fun _ => own .doubleQuoted nofun nofun hc) fun _ _ _ h => h)
  · next hc =>
    exact read .reference ((answers_variableName here hc).mono (fun _ => .inl) fun _ _ _ h => h)
  · next hc =>
    -- a capture
    have shorter := Cursor.next_length hc
    have opening := (Cursor.passes_next hc).moves
    refine (answers_past (k := fun _ => _) hc ?_).mono (fun _ holds => holds) fun _ _ _ nearer _ => nearer
    refine answers_bind ((hinner.chunk (some ')') (here.moves opening) (by omega)).mono (fun _ => .inl)
      fun _ _ _ ends => ends) fun chunk c₁ _ moves ends => ?_
    have there := here.moves (opening.trans moves)
    refine answers_bind ((answers_closeWith there ends).mono (fun _ => own .outputCapture nofun nofun hc)
      fun _ _ _ h => h) fun _ c₂ _ _ _ => ?_
    exact answers_spanFrom (answers_pure trivial)
  · next hc =>
    -- a bracket misses the end of a map or of a list
    refine answers_bind ((answers_bracketed hinner here hc hroom).mono ?_ fun _ _ _ h => h)
      fun found c₁ _ _ nearer => answers_pure fun _ => nearer
    rintro error (map | list)
    · exact own .map nofun nofun hc map
    · exact .inr (.inr ⟨hc, list⟩)
  · next hc =>
    -- a brace opens a lambda or a list
    refine answers_second ?_
    split
    · exact read (fun body => .lambda [] body)
        ((answers_lambdaBody hinner here hc hroom).mono (fun _ => .inl) fun _ _ _ h => h)
    · exact read .braced ((answers_bracedItems hinner here hc hroom).mono (fun _ => own .bracedList nofun nofun hc)
        fun _ _ _ h => h)
  · exact answers_bareword?.mono (fun _ => .inl) fun _ _ _ h => h

/-- **A primary**: the delimiter that is missing is the one at its start. -/
theorem answers_primary? (here : c.At code) (hroom : c.rest.length ≤ room) :
    Answers (ParseError.Placed code) (primary? (code.length + 1) inner around) c fun found c' =>
      found.isSome → c'.rest.length < c.rest.length := by
  refine (ofPrimary_primary? hinner here hroom).turn ?_
  rintro error run (placed | ⟨what, index, lambda, hc, missing⟩ | ⟨hc, missing⟩)
  -- a delimiter that is missing belongs to what is read here, and that has no end anywhere
  · exact placed
  · exact ParseError.Missing.placed what here hc (read_of_primary? hinner index lambda hc run) missing
  · exact missing.pastBracket here hc (read_of_primary? hinner nofun nofun hc run)

/-! ## Compounds and forms -/

/-- A primary with its indices. -/
theorem answers_indexing? (here : c.At code) (hroom : c.rest.length ≤ room) :
    Answers (ParseError.Placed code) (indexing? (code.length + 1) inner around) c fun found c' =>
      found.isSome → c'.rest.length < c.rest.length := by
  refine answers_offset (answers_bind (answers_primary? hinner here hroom)
    fun found c₁ _ moves nearer => ?_)
  have there := here.moves moves
  have most := there.length_le
  have left := moves.length_le
  cases found with
  | none => exact answers_pure nofun
  -- as many brackets as there are: each of them is more than nothing
  | some head =>
    have brackets : Answers (ParseError.Placed code) (repeated (code.length + 1) do
        if (← peek?) == some '[' then return Round.more (← bracket (code.length + 1) inner)
        else return .stop) c₁ fun _ _ => True := by
      refine answers_rounds (Nat.lt_succ_of_le most) fun c₂ further => answers_peek ?_
      have := further.length_le
      split
      · next opened =>
        have opening := answers_bracket hinner (there.moves further) (eq_of_beq opened) (by omega)
        exact answers_bind opening fun _ _ _ _ shorter => answers_pure shorter
      · exact answers_pure trivial
    refine answers_bind brackets fun _ c₂ _ further _ => answers_spanFrom (answers_pure fun _ => ?_)
    have := further.length_le
    have := nearer rfl
    omega

/-- A word; it is empty only if nothing has been read. -/
theorem answers_compound (here : c.At code) (hroom : c.rest.length ≤ room) :
    Answers (ParseError.Placed code) (compound (code.length + 1) inner around) c fun found c' =>
      found.indexings.isEmpty = false → c'.rest.length < c.rest.length := by
  have most := here.length_le
  -- a round that finds something comes nearer to the end, and the others keep what it has gained
  refine answers_offset (answers_bind (answers_repeated (Q := fun c found c' =>
    c'.rest.length ≤ c.rest.length ∧ (found.isEmpty = false → c'.rest.length < c.rest.length))
    (Nat.lt_succ_of_le most) ?_) fun _ _ _ _ nearer => answers_spanFrom (answers_pure nearer.2))
  · intro c₁ moves
    have left := moves.length_le
    refine answers_bind (answers_indexing? hinner (here.moves moves) (by omega))
      fun found c₂ _ further nearer => ?_
    have beyond := further.length_le
    cases found with
    | none => exact answers_pure ⟨⟨beyond, fun some => absurd some (by simp)⟩, trivial⟩
    | some found =>
      have shorter := nearer rfl
      refine answers_pure ⟨fun later c₃ rest => ⟨?_, fun _ => ?_⟩, shorter⟩
      · have := rest.1
        omega
      · have := rest.1
        omega

/-- An assignment that is found is more than nothing. -/
theorem answers_compactAssignment? (here : c.At code) (hroom : c.rest.length ≤ room) :
    Answers (ParseError.Placed code) (compactAssignment? (code.length + 1) inner) c fun found c' =>
      ∀ a ∈ found, c'.rest.length < c.rest.length := by
  refine answers_offset (answers_peek ?_)
  split
  -- nothing is left, the first character starts no target, or a target is read
  · exact answers_pure nofun
  · refine answers_second ?_
    split
    · exact answers_pure nofun
    · refine answers_bind (answers_indexing? hinner here hroom) fun found c₁ _ moves nearer => ?_
      have there := here.moves moves
      have left := moves.length_le
      cases found with
      | none => exact answers_pure nofun
      | some target =>
        have shorter := nearer rfl
        refine answers_peek ?_
        generalize other : (!_ || c₁.rest.head? != some '=') = no
        -- what was read is no target, or no equals sign follows it
        cases no with
        | true => exact answers_pure nofun
        | false =>
          have sign : c₁.rest.head? = some '=' := by
            rw [Bool.or_eq_false_iff, bne_eq_false_iff_eq] at other
            exact other.2
          have one := (Cursor.passes_next sign).moves
          have less := Cursor.next_length sign
          refine answers_advance sign ?_
          refine answers_bind (answers_compound hinner (there.moves one) (by omega))
            fun right c₂ _ further _ => answers_spanFrom (answers_pure fun _ _ => ?_)
          have := further.length_le
          omega

/-- Assignments without spaces; an attempt that fails has no problem of its own. -/
theorem answers_compactAssignments (here : c.At code) (hroom : c.rest.length ≤ room) :
    Answers (ParseError.Placed code) (compactAssignments (code.length + 1) inner) c fun found c' =>
      found.isEmpty = false → c'.rest.length < c.rest.length := by
  have most := here.length_le
  refine answers_bind (answers_repeated (Q := fun c found c' => c'.rest.length ≤ c.rest.length ∧
    (found.isEmpty = false → c'.rest.length < c.rest.length)) (Nat.lt_succ_of_le most) ?_)
      fun found c₁ _ moves nearer => ?_
  -- each round finds an assignment or is the last one
  · intro c₁ moves
    have left := moves.length_le
    refine answers_bind (answers_attempt
      (answers_compactAssignment? hinner (here.moves moves) (by omega))) fun found c₂ _ further nearer => ?_
    have beyond := further.length_le
    cases found with
    | none => exact answers_pure ⟨⟨beyond, fun some => absurd some (by simp)⟩, trivial⟩
    | some assignment =>
      have shorter := nearer assignment rfl
      refine answers_skipSpaces fun c₃ spaces => answers_atFormEnd fun ended => ?_
      have after := spaces.length_le
      cases ended with
      | true => exact answers_pure ⟨⟨by omega, fun _ => by omega⟩, trivial⟩
      | false =>
        refine answers_pure ⟨fun later c₄ rest => ⟨?_, fun _ => ?_⟩, ?_⟩
        · have := rest.1
          omega
        · have := rest.1
          omega
        · show c₃.rest.length < c₁.rest.length
          omega
  -- after assignments the form has to end
  · have there := here.moves moves
    split
    · exact answers_pure fun some => absurd some (by simp)
    · refine answers_skipSpaces fun c₂ spaces => answers_atFormEnd fun ended => ?_
      have after := spaces.length_le
      cases ended with
      | true =>
        refine answers_pure fun some => ?_
        have := nearer.2 some
        omega
      | false =>
        refine answers_offset (answers_failAt ?_)
        exact ParseError.placed_from (there.moves spaces) (.refl c₂) fun _ same => by cases same

/-- A command, or an assignment with a lone equals sign. -/
theorem answers_commandForm (here : c.At code) (hroom : c.rest.length ≤ room) :
    Answers (ParseError.Placed code) (commandForm (code.length + 1) inner) c fun _ c' =>
      c'.rest.length < c.rest.length := by
  refine answers_offset (answers_bind (answers_compound hinner here hroom)
    fun head c₁ run moves nearer => ?_)
  have there := here.moves moves
  have most := there.length_le
  split
  · exact answers_unexpected there fun _ placed => placed
  · next some =>
    have shorter := nearer (Bool.not_eq_true _ ▸ some)
    -- the arguments, up to where the form ends
    have args : Answers (ParseError.Placed code) (repeated (code.length + 1) do
        skipSpaces
        if ← atFormEnd then return Round.stop
        else do
          let arg ← compound (code.length + 1) inner .plain
          if arg.indexings.isEmpty then unexpected else return .more arg) c₁ fun _ _ => True := by
      refine answers_rounds (Nat.lt_succ_of_le most) ?_
      intro c₂ further
      refine answers_skipSpaces fun c₃ spaces => answers_atFormEnd fun ended => ?_
      have left := further.length_le
      have after := spaces.length_le
      have so_far := there.moves (further.trans spaces)
      cases ended with
      | true => exact answers_pure trivial
      | false =>
        refine answers_bind (answers_compound hinner so_far (by omega)) fun arg c₄ _ on nearer => ?_
        split
        · exact answers_unexpected (so_far.moves on) fun _ placed => placed
        · next some =>
          have := nearer (Bool.not_eq_true _ ▸ some)
          refine answers_pure ?_
          show c₄.rest.length < c₂.rest.length
          omega
    refine answers_bind args fun args c₂ _ further _ => ?_
    have left := further.length_le
    dsimp only
    split
    -- the second word may be an equals sign, and then the first has to be one indexing
    · split
      · split
        · exact answers_pure (by omega)
        · have whole := (compound_ok hinner.exact here run).whole
          exact answers_failAt (ParseError.placed_node whole nofun)
      · exact answers_pure (by omega)
    · exact answers_pure (by omega)

/-- A form has at least one letter. -/
theorem answers_form (here : c.At code) (hroom : c.rest.length ≤ room) :
    Answers (ParseError.Placed code) (form (code.length + 1) inner) c fun _ c' =>
      c'.rest.length < c.rest.length := by
  refine answers_offset (answers_bind (answers_compactAssignments hinner here hroom)
    fun found c₁ _ moves nearer => ?_)
  have left := moves.length_le
  cases found with
  -- no assignment, so a command
  | nil =>
    refine (answers_commandForm hinner (here.moves moves) (by omega)).mono (fun _ placed => placed)
      fun _ c' _ shorter => ?_
    omega
  | cons first later => exact answers_pure (nearer rfl)

/-- A pipeline: forms with a bar between them. -/
theorem answers_pipeline (here : c.At code) (hroom : c.rest.length ≤ room) :
    Answers (ParseError.Placed code) (pipeline (code.length + 1) inner) c fun _ c' =>
      c'.rest.length < c.rest.length := by
  refine answers_offset (answers_bind (answers_form hinner here hroom)
    fun first c₁ _ moves shorter => ?_)
  have there := here.moves moves
  have most := there.length_le
  -- a bar, blanks, and one more form
  have others : Answers (ParseError.Placed code) (repeated (code.length + 1) do
      skipSpaces
      if (← peek?) == some '|' then do
        advance
        skipBlank
        return Round.more (← form (code.length + 1) inner)
      else return .stop) c₁ fun _ _ => True := by
    refine answers_rounds (Nat.lt_succ_of_le most) ?_
    intro c₂ further
    refine answers_skipSpaces fun c₃ spaces => answers_peek ?_
    split
    · next bar =>
      have pipe : c₃.rest.head? = some '|' := eq_of_beq bar
      have one := (Cursor.passes_next pipe).moves
      refine answers_advance pipe (answers_skipBlank fun c₄ blank => ?_)
      have so_far := further.trans (spaces.trans (one.trans blank))
      have left := so_far.length_le
      refine answers_bind (answers_form hinner (there.moves so_far) (by omega))
        fun next c₅ _ _ nearer => answers_pure ?_
      have := (spaces.trans (one.trans blank)).length_le
      show c₅.rest.length < c₂.rest.length
      omega
    · exact answers_pure trivial
  refine answers_bind others fun others c₂ _ further _ => answers_pure ?_
  have := further.length_le
  omega

/-- A chunk is read up to its closing character or to the end of the code. -/
theorem answers_chunk (closer : Option Char) (here : c.At code) (hroom : c.rest.length ≤ room) :
    Answers (ParseError.Placed code) (chunk (code.length + 1) inner closer) c fun _ c' =>
      c'.rest.head? = none ∨ c'.rest.head? = closer := by
  have most := here.length_le
  refine answers_offset (answers_bind (answers_repeated
    (Q := fun _ _ c' => c'.rest.head? = none ∨ c'.rest.head? = closer) (Nat.lt_succ_of_le most) ?_)
    fun _ _ _ _ ends => answers_spanFrom (answers_pure ends))
  intro c₁ moves
  refine answers_skipSeparators fun c₂ separators => answers_peek ?_
  have there := here.moves (moves.trans separators)
  have left := (moves.trans separators).length_le
  have after := separators.length_le
  split
  -- the end of the code, the closing character, a closing character of something else, or a pipeline
  · next ended => exact answers_pure ⟨.inl ended, trivial⟩
  · next ch hch =>
    split
    · next closed => exact answers_pure ⟨.inr (hch.trans closed.symm), trivial⟩
    · split
      · exact answers_unexpected there fun _ placed => placed
      · refine answers_bind (answers_pipeline hinner there (by omega)) fun found c₃ _ further nearer => ?_
        refine answers_skipSpaces fun c₄ spaces => answers_skipComment fun c₅ comment => ?_
        have on := spaces.trans comment
        have beyond := on.length_le
        refine answers_peek ?_
        split
        · next ended => exact answers_pure ⟨.inl ended, trivial⟩
        · next ch' hch' =>
          split
          · refine answers_pure ⟨fun _ _ ends => ends, ?_⟩
            -- a separator ends the pipeline, and something has been read
            show c₅.rest.length < c₁.rest.length
            omega
          · split
            · next closed => exact answers_pure ⟨.inr (hch'.trans closed.symm), trivial⟩
            · exact answers_unexpected (there.moves (further.trans on)) fun _ placed => placed

/-! ## Source texts -/

omit hinner in
/-- By induction on the depth: who stands inside a delimiter has fewer characters left than there are levels. -/
theorem inner_answers {depth : Nat} (deep : depth ≤ code.length + 1) :
    (Grammar.inner (code.length + 1) depth).Answers code depth := by
  have exact := inner_exact code (code.length + 1) depth
  have bounded := extends_inner (Nat.le_refl (code.length + 1)) deep
  induction depth with
  -- nobody stands inside without a level
  | zero => exact ⟨fun _ _ _ none => absurd none (Nat.not_lt_zero _),
      fun _ _ _ none => absurd none (Nat.not_lt_zero _), exact, bounded⟩
  | succ depth ih =>
    have below : depth ≤ code.length + 1 := Nat.le_of_succ_le deep
    have level := ih below (inner_exact code _ depth) (extends_inner (Nat.le_refl _) below)
    exact ⟨fun closer _ here room => answers_chunk level closer here (Nat.le_of_lt_succ room),
      fun around _ here room => answers_compound level here (Nat.le_of_lt_succ room), exact, bounded⟩

end Grammar

/-- **Where a text that does not parse is wrong.**  If one more than the number of its bytes has 32 bits, reading a
text ends with a problem, never with a limit; and the window of the problem lies in the text between two character
boundaries, starting with the opening delimiter if the closing one is missing.  There are two exceptions: the
backslash at the end of the text in a double-quoted string, and a list without an end that has blanks or comments
after its bracket. -/
theorem readChunk_problem {code : String} {stop : ReadStop ParseError}
    (short : byteLength code.toList + 1 < UInt32.size) (h : readChunk code = .error stop) :
    ∃ error, stop = .problem error ∧
      (error.Located code.toList ∨ error.AtLastBackslash code.toList ∨
        error.PastBracket code.toList) := by
  have start : (Cursor.start code.toList).At code.toList := ⟨[], rfl, rfl⟩
  have level := inner_answers (Nat.le_refl (code.toList.length + 1))
  -- what is left after a unit is a closing character that nothing has opened
  have whole : Answers (ParseError.Placed code.toList)
      (Grammar.unit (code.toList.length + 1)) (Cursor.start code.toList) fun _ _ => True := by
    refine answers_bind (answers_chunk level none start (Nat.le_succ _)) fun found c _ moves _ => ?_
    refine answers_peek ?_
    split
    · exact answers_unexpected (start.moves moves) fun _ placed => placed
    · exact answers_pure trivial
  rw [readChunk_eq short] at h
  rcases run : Grammar.unit (code.toList.length + 1) (Cursor.start code.toList) with stop' | found
  · rw [run] at h
    obtain rfl : stop' = stop := Except.error.inj h
    exact whole.fails run
  · rw [run] at h
    exact nomatch h

/-- An output capture without an end, after text of several bytes. -/
theorem readChunk_problem_after_multibyte :
    readChunk "put 'é' (f x" = .error (.problem ⟨.unterminated .outputCapture, ⟨9, 13⟩⟩) ∧
      ∃ error, (ReadStop.problem ⟨.unterminated .outputCapture, ⟨9, 13⟩⟩ : ReadStop ParseError) =
          .problem error ∧
        (error.Located "put 'é' (f x".toList ∨ error.AtLastBackslash "put 'é' (f x".toList ∨
          error.PastBracket "put 'é' (f x".toList) := by
  have read : readChunk "put 'é' (f x" = .error (.problem ⟨.unterminated .outputCapture, ⟨9, 13⟩⟩) := rfl
  exact ⟨read, readChunk_problem (by decide +kernel) read⟩

/-- The two exceptions.  The window of a list that is left open before a comment may start in the middle of a
character, and the window of an escape that the text does not go on with is longer than the text. -/
theorem readChunk_problem_elsewhere :
    (∃ error, readChunk "[#é" = .error (.problem error) ∧ error.span = ⟨3, 4⟩ ∧
      ¬ error.Located "[#é".toList) ∧
    (∃ error, readChunk "\"\\" = .error (.problem error) ∧ error.span = ⟨1, 3⟩ ∧
      ¬ error.Located "\"\\".toList) := by
  refine ⟨⟨⟨.unterminated .list, ⟨3, 4⟩⟩, rfl, rfl, ?_⟩, ⟨.invalidEscape, ⟨1, 3⟩⟩, rfl, rfl, ?_⟩
  · intro located
    obtain ⟨before, after, split, offset⟩ := located.starts
    -- no text starts at the second byte of the last character
    have cut := dropBytes?_append before after
    rw [← split, ← offset] at cut
    exact nomatch cut
  · intro located
    have inside : 3 ≤ byteLength "\"\\".toList := located.inside
    exact absurd inside (by decide)

end ValueShell
