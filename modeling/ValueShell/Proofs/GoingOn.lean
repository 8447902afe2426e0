/-
  Reading a text that goes on.

  Code may be followed by more code on the next line.  A reader that finds something in the shorter text
  finds the same in the longer one, unless it came to the end of the shorter text in the middle of a
  bracket or of a quoted string, where the next line would have been part of it.

  So there has to be a way to say that nothing is left open.  `Open` is what is open at a place: how many
  brackets, and whether the place is inside a comment or a quoted string.  It follows the characters one by
  one, and does not ask which bracket a closing one belongs to; that is enough to know where the text
  cannot end.

  `GoesOn` relates the two runs, on the text `cs` and on `cs` with more after it.  What is found is the same,
  and a problem stays a problem; an attempt that fails would otherwise succeed with the help of the
  next line.  Both are only claimed where all that is open gets closed before `cs` ends, and in return the
  readers account for what they open and close.
-/
import Mathlib.Data.List.TakeWhile
import ValueShell.Proofs.ReaderRuns
import ValueShell.Syntax.Grammar

namespace ValueShell

/-! ## What is open -/

/-- What a character is part of. -/
inductive Zone
  | code
  | comment
  | single
  | double
  /-- after a backslash in a double-quoted string -/
  | escape
deriving DecidableEq

/-- **What is open** at a place in code. -/
structure Open where
  zone : Zone
  /-- the number of open brackets, of all three kinds -/
  depth : Nat

namespace Open

/-- In code, with that many brackets open. -/
abbrev code (depth : Nat) : Open := ⟨.code, depth⟩

/-- What is open after a character; none after a closing bracket where no bracket is open. -/
def after? : Open → Char → Option Open
  | ⟨.comment, n⟩, c => some ⟨if c = '\n' then .code else .comment, n⟩
  | ⟨.single, n⟩, c => some ⟨if c = '\'' then .code else .single, n⟩
  | ⟨.double, n⟩, c => some ⟨if c = '"' then .code else if c = '\\' then .escape else .double, n⟩
  | ⟨.escape, n⟩, _ => some ⟨.double, n⟩
  | ⟨.code, n⟩, c =>
    if c = '#' then some ⟨.comment, n⟩
    else if c = '\'' then some ⟨.single, n⟩
    else if c = '"' then some ⟨.double, n⟩
    else if c = '(' ∨ c = '[' ∨ c = '{' then some (code (n + 1))
    else if c = ')' ∨ c = ']' ∨ c = '}' then if n = 0 then none else some (code (n - 1))
    else some (code n)

/-- Whether all that is open is closed in the rest of the text. -/
def closes : Open → List Char → Bool
  | s, [] => (s.zone == .code || s.zone == .comment) && s.depth == 0
  | s, c :: cs =>
    match s.after? c with
    | some s' => s'.closes cs
    | none => false

variable {s s' : Open} {n : Nat} {c : Char} {cs : List Char}

/-- A text closes what is open if its rest does, after the first character. -/
theorem closes_cons (h : s.after? c = some s') : s.closes (c :: cs) = s'.closes cs := by
  rw [closes, h]

/-- Where a bracket is open the text does not end. -/
theorem not_closes_nil (h : 0 < n) : (code n).closes [] = false := by
  cases n with
  | zero => exact nomatch h
  | succ n => rfl

/-- A character that opens and closes nothing. -/
def Plain (c : Char) : Prop := ∀ n, (code n).after? c = some (code n)

/-- The characters that open and close nothing. -/
theorem plain_iff : Plain c ↔ c ∉ ['#', '\'', '"', '(', '[', '{', ')', ']', '}'] := by
  constructor
  · intro plain special
    have same := plain 0
    simp only [List.mem_cons, List.not_mem_nil, or_false] at special
    rcases special with rfl | rfl | rfl | rfl | rfl | rfl | rfl | rfl | rfl <;>
      simp [after?, code] at same
  · intro other n
    simp only [List.mem_cons, List.not_mem_nil, or_false, not_or] at other
    simp [after?, other]

instance (c : Char) : Decidable (Plain c) := decidable_of_iff _ plain_iff.symm

/-- Plain characters change nothing. -/
theorem closes_plain (h : ∀ c ∈ cs, Plain c) (rest : List Char) :
    (code n).closes (cs ++ rest) = (code n).closes rest := by
  induction cs with
  | nil => rfl
  | cons c cs ih =>
    rw [List.cons_append, closes_cons (h c List.mem_cons_self n)]
    exact ih fun c hc => h c (List.mem_cons_of_mem _ hc)

/-- What is skipped opens and closes nothing, comments included. -/
theorem closes_skip {separator : Char → Bool} (plain : ∀ c, separator c = true → Plain c)
    (commented : Bool) (offset : Nat) (cs : List Char) :
    (Open.mk (if commented then .comment else .code) n).closes cs =
      (code n).closes (Cursor.skip separator commented offset cs).rest := by
  induction cs generalizing commented offset with
  | nil => cases commented <;> rfl
  | cons c cs ih =>
    cases commented with
    | true =>
      rw [Cursor.skip, ← ih]
      by_cases newline : c = '\n'
      · subst newline
        rfl
      · have stays : (c != '\n') = true := bne_iff_ne.mpr newline
        rw [stays]
        exact closes_cons (by simp [after?, newline])
    | false =>
      show (code n).closes (c :: cs) = _
      rw [Cursor.skip]
      by_cases separates : separator c = true
      · rw [if_pos separates, ← ih]
        exact closes_cons (plain c separates n)
      · rw [if_neg separates]
        by_cases hash : c = '#'
        · subst hash
          rw [if_pos rfl, ← ih]
          rfl
        · rw [if_neg hash]

end Open

/-! ## Going on -/

section GoingOn

variable (more : List Char) {α β : Type}

/-- **`x` before the text `cs`, and `y` before `cs` with more on the next line.**  At the start `s` is open,
and what is open at the end goes by what is found.  If `firm` does not hold, nothing is said about
problems. -/
structure GoesOn (firm : Prop) (s : Open) (next : α → Open) (x y : Reader α) (cs : List Char) :
    Prop where
  closes : ∀ {offset a c'}, x ⟨offset, cs⟩ = .ok (a, c') → s.closes cs = (next a).closes c'.rest
  found : ∀ {offset a c'}, x ⟨offset, cs⟩ = .ok (a, c') → s.closes cs = true →
    y ⟨offset, cs ++ '\n' :: more⟩ = .ok (a, ⟨c'.offset, c'.rest ++ '\n' :: more⟩)
  fails : ∀ {offset e}, x ⟨offset, cs⟩ = .error (.problem e) → firm → s.closes cs = true →
    ∃ e', y ⟨offset, cs ++ '\n' :: more⟩ = .error (.problem e')

end GoingOn

namespace Reader

open TextReader

variable {more : List Char} {α β : Type} {firm : Prop} {s : Open} {n : Nat} {next : α → Open}
  {cs : List Char}

/-! ### Rules -/

/-- What is returned is the same, and nothing is read. -/
theorem goesOn_pure {a : α} (h : next a = s) : GoesOn more firm s next (pure a) (pure a) cs where
  closes := by
    rintro offset b c' hx
    cases hx
    rw [h]
  found := by
    rintro offset b c' hx -
    cases hx
    rfl
  fails := nofun

/-- **One reader after the other.**  What is open in between may depend on what was found. -/
theorem goesOn_bind {mid : α → Open} {next : β → Open} {x y : Reader α} {k l : α → Reader β}
    (h : GoesOn more firm s mid x y cs)
    (later : ∀ a cs', GoesOn more firm (mid a) next (k a) (l a) cs') :
    GoesOn more firm s next (x >>= k) (y >>= l) cs where
  closes := by
    intro offset b c' hx
    obtain ⟨a, c₁, first, second⟩ := run_bind_ok hx
    exact (h.closes first).trans ((later a c₁.rest).closes second)
  found := by
    intro offset b c' hx closed
    obtain ⟨a, c₁, first, second⟩ := run_bind_ok hx
    have goes := h.found first closed
    rw [h.closes first] at closed
    show (y _).bind _ = _
    rw [goes]
    exact (later a c₁.rest).found second closed
  fails := by
    intro offset e hx hfirm closed
    change (x ⟨offset, cs⟩).bind (fun p => k p.1 p.2) = _ at hx
    show ∃ e', (y _).bind _ = _
    rcases first : x ⟨offset, cs⟩ with stop | ⟨a, c₁⟩ <;> rw [first] at hx
    · cases hx
      obtain ⟨e', he'⟩ := h.fails first hfirm closed
      rw [he']
      exact ⟨e', rfl⟩
    · rw [h.found first closed]
      rw [h.closes first] at closed
      exact (later a c₁.rest).fails hx hfirm closed

/-- Where something stays open, nothing is asked of the longer text. -/
theorem goesOn_open {x y z : Reader α} (h : s.closes cs = false)
    (goes : GoesOn more firm s next x y cs) : GoesOn more firm s next x z cs where
  closes := goes.closes
  found _ closed := nomatch h.symm.trans closed
  fails _ _ closed := nomatch h.symm.trans closed

/-- Who finds a problem on both sides. -/
theorem goesOn_problem {x y : Reader α} (hx : ∀ c, ∃ e, x c = .error (.problem e))
    (hy : ∀ c, ∃ e, y c = .error (.problem e)) : GoesOn more firm s next x y cs where
  closes found := by
    obtain ⟨e, he⟩ := hx _
    exact nomatch he.symm.trans found
  found found := by
    obtain ⟨e, he⟩ := hx _
    exact nomatch he.symm.trans found
  fails _ _ _ := hy _

/-- A problem stays a problem, even if it is another one. -/
theorem goesOn_failAt (problem problem' : ParseProblem) (span span' : Span) :
    GoesOn more firm s next (failAt problem span) (failAt problem' span') cs :=
  goesOn_problem (fun _ => ⟨_, rfl⟩) fun _ => ⟨_, rfl⟩

theorem goesOn_failFrom (start : Nat) (problem : ParseProblem) :
    GoesOn more firm s next (failFrom start problem) (failFrom start problem) cs :=
  goesOn_problem (fun _ => ⟨_, rfl⟩) fun _ => ⟨_, rfl⟩

/-- A letter that fits nowhere is a problem. -/
theorem unexpected_problem (c : Cursor) : ∃ e, (unexpected : Reader α) c = .error (.problem e) := by
  obtain ⟨offset, rest⟩ := c
  cases rest with
  | nil => exact ⟨_, rfl⟩
  | cons c rest => exact ⟨_, rfl⟩

theorem goesOn_unexpected : GoesOn more firm s next unexpected unexpected cs :=
  goesOn_problem unexpected_problem unexpected_problem

/-- A reader that is firm is so under any condition. -/
theorem goesOn_weaken {p : Prop} {x y : Reader α} (h : GoesOn more firm s next x y cs)
    (hp : p → firm) : GoesOn more p s next x y cs where
  closes := h.closes
  found := h.found
  fails hx holds := h.fails hx (hp holds)

/-- Only what the readers do at the two places matters. -/
theorem goesOn_congr {x x' y y' : Reader α} (h : GoesOn more firm s next x' y' cs)
    (hx : ∀ offset, x ⟨offset, cs⟩ = x' ⟨offset, cs⟩)
    (hy : ∀ offset, y ⟨offset, cs ++ '\n' :: more⟩ = y' ⟨offset, cs ++ '\n' :: more⟩) :
    GoesOn more firm s next x y cs where
  closes {offset _ _} run := h.closes ((hx offset).symm.trans run)
  found {offset _ _} run closed := (hy offset).trans (h.found ((hx offset).symm.trans run) closed)
  fails {offset e} run hfirm closed := by
    rw [hy offset]
    exact h.fails ((hx offset).symm.trans run) hfirm closed

/-! ### Looking -/

/-- The offset is the same on both sides. -/
theorem goesOn_offset {k l : Nat → Reader α} (later : ∀ o, GoesOn more firm s next (k o) (l o) cs) :
    GoesOn more firm s next (offset >>= k) (offset >>= l) cs where
  closes {o _ _} hx := (later o).closes hx
  found {o _ _} hx := (later o).found hx
  fails {o _} hx := (later o).fails hx

/-- The next character.  At the end of the shorter text there is a line end in the longer one. -/
theorem goesOn_peek {k l : Option Char → Reader α}
    (char : ∀ c rest, cs = c :: rest → GoesOn more firm s next (k (some c)) (l (some c)) cs)
    (ended : cs = [] → GoesOn more firm s next (k none) (l (some '\n')) cs) :
    GoesOn more firm s next (peek? >>= k) (peek? >>= l) cs := by
  cases cs with
  | nil => exact ⟨(ended rfl).closes, (ended rfl).found, (ended rfl).fails⟩
  | cons c rest =>
    exact ⟨(char c rest rfl).closes, (char c rest rfl).found, (char c rest rfl).fails⟩

/-- Whether the next character is a certain one, which is no line end. -/
theorem goesOn_peek_is {c : Char} (hc : c ≠ '\n') {k l : Bool → Reader α}
    (yes : ∀ rest, cs = c :: rest → GoesOn more firm s next (k true) (l true) cs)
    (no : GoesOn more firm s next (k false) (l false) cs) :
    GoesOn more firm s next (peek? >>= fun o => k (o == some c)) (peek? >>= fun o => l (o == some c))
      cs := by
  refine goesOn_peek (fun d rest hd => ?_) fun _ => ?_
  · by_cases same : d = c
    · subst same
      rw [beq_self_eq_true]
      exact yes rest hd
    · have other : (some d == some c) = false := beq_eq_false_iff_ne.mpr fun h => same (Option.some.inj h)
      rw [other]
      exact no
  · have newline : (some '\n' == some c) = false :=
      beq_eq_false_iff_ne.mpr fun h => hc (Option.some.inj h).symm
    rw [newline]
    exact no

/-- The character after the next one. -/
theorem goesOn_second {c : Char} {rest : List Char} {k l : Option Char → Reader α}
    (char : ∀ d, GoesOn more firm s next (k (some d)) (l (some d)) (c :: rest))
    (ended : rest = [] → GoesOn more firm s next (k none) (l (some '\n')) (c :: rest)) :
    GoesOn more firm s next (second? >>= k) (second? >>= l) (c :: rest) := by
  cases rest with
  | nil => exact ⟨(ended rfl).closes, (ended rfl).found, (ended rfl).fails⟩
  | cons d rest => exact ⟨(char d).closes, (char d).found, (char d).fails⟩

/-- So is the span. -/
theorem goesOn_spanFrom {start : Nat} {k l : Span → Reader α}
    (later : ∀ span, GoesOn more firm s next (k span) (l span) cs) :
    GoesOn more firm s next (spanFrom start >>= k) (spanFrom start >>= l) cs where
  closes {o _ _} hx := (later ⟨start, o⟩).closes hx
  found {o _ _} hx := (later ⟨start, o⟩).found hx
  fails {o _} hx := (later ⟨start, o⟩).fails hx

/-- A form ends at a line end, as it does at the end of the text. -/
theorem goesOn_atFormEnd {k l : Bool → Reader α}
    (later : ∀ ended, GoesOn more firm s next (k ended) (l ended) cs) :
    GoesOn more firm s next (atFormEnd >>= k) (atFormEnd >>= l) cs := by
  cases cs with
  | nil => exact ⟨(later true).closes, (later true).found, (later true).fails⟩
  | cons c rest => exact ⟨(later _).closes, (later _).found, (later _).fails⟩

/-! ### Moving -/

/-- To move by one letter follows what it opens and closes. -/
theorem goesOn_advance {c : Char} {rest : List Char} {t : Open} (hc : s.after? c = some t)
    {k l : Unit → Reader α} (later : GoesOn more firm t next (k ()) (l ()) rest) :
    GoesOn more firm s next (advance >>= k) (advance >>= l) (c :: rest) where
  closes hx := (Open.closes_cons hc).trans (later.closes hx)
  found hx closed := later.found hx ((Open.closes_cons hc).symm.trans closed)
  fails hx hfirm closed := later.fails hx hfirm ((Open.closes_cons hc).symm.trans closed)

/-- The end of a step that moved past a character. -/
theorem goesOn_advance_pure {c : Char} {rest : List Char} {a : α} (hc : s.after? c = some (next a)) :
    GoesOn more firm s next (advance >>= fun _ => pure a) (advance >>= fun _ => pure a) (c :: rest) :=
  goesOn_advance hc (goesOn_pure rfl)

/-- A change of the cursor that does the same in the longer text. -/
theorem goesOn_modify {change : Cursor → Cursor} {k l : PUnit → Reader α}
    (closes : ∀ offset, (Open.code n).closes cs = (Open.code n).closes (change ⟨offset, cs⟩).rest)
    (same : ∀ offset, (Open.code n).closes cs = true → change ⟨offset, cs ++ '\n' :: more⟩ =
      ⟨(change ⟨offset, cs⟩).offset, (change ⟨offset, cs⟩).rest ++ '\n' :: more⟩)
    (later : ∀ rest, GoesOn more firm (.code n) next (k ⟨⟩) (l ⟨⟩) rest) :
    GoesOn more firm (.code n) next (modify change >>= k) (modify change >>= l) cs where
  closes {offset _ _} hx := (closes offset).trans ((later _).closes hx)
  found {offset _ _} hx closed := by
    show l ⟨⟩ (change ⟨offset, _⟩) = _
    rw [same offset closed]
    exact (later _).found hx ((closes offset).symm.trans closed)
  fails {offset _} hx hfirm closed := by
    show ∃ e', l ⟨⟩ (change ⟨offset, _⟩) = _
    rw [same offset closed]
    exact (later _).fails hx hfirm ((closes offset).symm.trans closed)

/-- A run of characters stops at the line end. -/
theorem dropWhile_goesOn (more : List Char) {p : Char → Bool} (newline : p '\n' = false) (offset : Nat)
    (cs : List Char) : (cs ++ '\n' :: more).takeWhile p = cs.takeWhile p ∧
      Cursor.dropWhile p ⟨offset, cs ++ '\n' :: more⟩ =
        ⟨(Cursor.dropWhile p ⟨offset, cs⟩).offset,
          (Cursor.dropWhile p ⟨offset, cs⟩).rest ++ '\n' :: more⟩ := by
  have takes : (cs ++ '\n' :: more).takeWhile p = cs.takeWhile p := by
    induction cs with
    | nil => simp [newline]
    | cons c cs ih =>
      rw [List.cons_append, List.takeWhile_cons, List.takeWhile_cons, ih]
  have drops : (cs ++ '\n' :: more).dropWhile p = cs.dropWhile p ++ '\n' :: more := by
    clear takes
    induction cs with
    | nil => simp [newline]
    | cons c cs ih =>
      rw [List.cons_append, List.dropWhile_cons, List.dropWhile_cons]
      split
      · exact ih
      · rfl
  refine ⟨takes, ?_⟩
  simp only [Cursor.dropWhile, takes, drops]

/-- To move past plain characters changes nothing that is open. -/
theorem closes_dropWhile {p : Char → Bool} (plain : ∀ c, p c = true → Open.Plain c) (offset : Nat)
    (cs : List Char) : (Open.code n).closes cs =
      (Open.code n).closes (Cursor.dropWhile p ⟨offset, cs⟩).rest := by
  have run : ∀ c ∈ cs.takeWhile p, Open.Plain c := fun c hc => plain c (List.mem_takeWhile_imp hc)
  have parts : cs.takeWhile p ++ cs.dropWhile p = cs := List.takeWhile_append_dropWhile
  show _ = (Open.code n).closes (cs.dropWhile p)
  rw [← Open.closes_plain run (cs.dropWhile p), parts]

/-- A run of characters that open and close nothing. -/
theorem goesOn_munch {p : Char → Bool} (plain : ∀ c, p c = true → Open.Plain c)
    (newline : p '\n' = false) {k l : List Char → Reader α}
    (later : ∀ run rest, GoesOn more firm (.code n) next (k run) (l run) rest) :
    GoesOn more firm (.code n) next (munch p >>= k) (munch p >>= l) cs where
  closes {offset _ _} hx := (closes_dropWhile plain offset cs).trans ((later _ _).closes hx)
  found {offset _ _} hx closed := by
    obtain ⟨takes, drops⟩ := dropWhile_goesOn more newline offset cs
    show l ((cs ++ '\n' :: more).takeWhile p) (Cursor.dropWhile p ⟨offset, _⟩) = _
    rw [takes, drops]
    exact (later _ _).found hx ((closes_dropWhile plain offset cs).symm.trans closed)
  fails {offset _} hx hfirm closed := by
    obtain ⟨takes, drops⟩ := dropWhile_goesOn more newline offset cs
    show ∃ e', l ((cs ++ '\n' :: more).takeWhile p) (Cursor.dropWhile p ⟨offset, _⟩) = _
    rw [takes, drops]
    exact (later _ _).fails hx hfirm ((closes_dropWhile plain offset cs).symm.trans closed)

/-- A blank is plain. -/
theorem plain_space {c : Char} (h : isSpace c = true) : Open.Plain c := by
  simp only [isSpace, Bool.or_eq_true, beq_iff_eq] at h
  rcases h with (rfl | rfl) | rfl <;> decide

/-- Blanks are skipped in both texts alike. -/
theorem goesOn_skipSpaces {k l : PUnit → Reader α}
    (later : ∀ rest, GoesOn more firm (.code n) next (k ⟨⟩) (l ⟨⟩) rest) :
    GoesOn more firm (.code n) next (skipSpaces >>= k) (skipSpaces >>= l) cs :=
  goesOn_modify (fun o => closes_dropWhile (fun _ => plain_space) o cs)
    (fun o _ => (dropWhile_goesOn more rfl o cs).2) later

/-- The longer text is skipped the same way, if the shorter one does not end there. -/
theorem skip_goesOn (separator : Char → Bool) (commented : Bool) (offset : Nat) {cs : List Char}
    (inside : (Cursor.skip separator commented offset cs).rest ≠ []) (text : List Char) :
    Cursor.skip separator commented offset (cs ++ text) =
      ⟨(Cursor.skip separator commented offset cs).offset,
        (Cursor.skip separator commented offset cs).rest ++ text⟩ := by
  induction cs generalizing commented offset with
  | nil =>
    refine absurd ?_ inside
    cases commented <;> rfl
  | cons c cs ih =>
    cases commented with
    | true => exact ih _ _ inside
    | false =>
      rw [List.cons_append]
      rw [Cursor.skip] at inside ⊢
      rw [Cursor.skip]
      by_cases separates : separator c = true
      · rw [if_pos separates] at inside ⊢
        rw [if_pos separates]
        exact ih _ _ inside
      · rw [if_neg separates] at inside ⊢
        rw [if_neg separates]
        by_cases hash : c = '#'
        · rw [if_pos hash] at inside ⊢
          rw [if_pos hash]
          exact ih _ _ inside
        · rw [if_neg hash, if_neg hash]
          rfl

/-- Blanks and comments inside a bracket, where the text does not end. -/
theorem goesOn_skip {separator : Char → Bool} (plain : ∀ c, separator c = true → Open.Plain c)
    {k l : PUnit → Reader α} (hn : 0 < n)
    (later : ∀ rest, GoesOn more firm (.code n) next (k ⟨⟩) (l ⟨⟩) rest) :
    GoesOn more firm (.code n) next
      (modify (fun c => Cursor.skip separator false c.offset c.rest) >>= k)
      (modify (fun c => Cursor.skip separator false c.offset c.rest) >>= l) cs := by
  refine goesOn_modify (fun o => Open.closes_skip plain false o cs) (fun o closed => ?_) later
  refine skip_goesOn separator false o (fun ended => ?_) _
  have stays := (Open.closes_skip plain false o cs).symm.trans closed
  rw [ended, Open.not_closes_nil hn] at stays
  exact nomatch stays

/-- Newlines are plain, too, where no comment is open. -/
theorem plain_blank {c : Char} (h : isSpaceOrNewline c = true) : Open.Plain c := by
  rcases Bool.or_eq_true_iff.mp h with h | h
  · exact plain_space h
  · rw [beq_iff_eq.mp h]
    decide

theorem plain_separator {c : Char} (h : (isSpaceOrNewline c || c == ';') = true) : Open.Plain c := by
  rcases Bool.or_eq_true_iff.mp h with h | h
  · exact plain_blank h
  · rw [beq_iff_eq.mp h]
    decide

/-- Inside of a bracket, blanks and comments are skipped alike. -/
theorem goesOn_skipBlank {k l : PUnit → Reader α} (hn : 0 < n)
    (later : ∀ rest, GoesOn more firm (.code n) next (k ⟨⟩) (l ⟨⟩) rest) :
    GoesOn more firm (.code n) next (skipBlank >>= k) (skipBlank >>= l) cs :=
  goesOn_skip (fun _ => plain_blank) hn later

/-- Outside of all brackets the text may end in what is skipped.  Then nothing is found in it any more, but
the next line may help. -/
theorem goesOn_skipBlank_outside {k l : PUnit → Reader α}
    (later : ∀ rest, GoesOn more (0 < n) (.code n) next (k ⟨⟩) (l ⟨⟩) rest)
    (ended : ∀ offset r, k ⟨⟩ ⟨offset, []⟩ ≠ .ok r) :
    GoesOn more (0 < n) (.code n) next (skipBlank >>= k) (skipBlank >>= l) cs := by
  rcases n.eq_zero_or_pos with rfl | hn
  · refine ⟨fun {o _ _} hx => ?_, fun {o a c'} hx closed => ?_, fun _ impossible => nomatch impossible⟩
    · exact (Open.closes_skip (fun _ => plain_blank) false o cs).trans ((later _).closes hx)
    · have inside : (Cursor.skip isSpaceOrNewline false o cs).rest ≠ [] := by
        intro none
        change k ⟨⟩ ⟨(Cursor.skip isSpaceOrNewline false o cs).offset, _⟩ = _ at hx
        rw [none] at hx
        exact ended _ _ hx
      show l ⟨⟩ (Cursor.skip isSpaceOrNewline false o (cs ++ '\n' :: more)) = _
      rw [skip_goesOn isSpaceOrNewline false o inside]
      refine (later _).found hx ?_
      exact (Open.closes_skip (fun _ => plain_blank) false o cs).symm.trans closed
  · exact goesOn_skipBlank hn later

/-- So are separators. -/
theorem goesOn_skipSeparators {k l : PUnit → Reader α} (hn : 0 < n)
    (later : ∀ rest, GoesOn more firm (.code n) next (k ⟨⟩) (l ⟨⟩) rest) :
    GoesOn more firm (.code n) next (skipSeparators >>= k) (skipSeparators >>= l) cs :=
  goesOn_skip (fun _ => plain_separator) hn later

/-- A comment ends with its line. -/
theorem closes_comment (offset : Nat) (cs : List Char) : (Open.mk .comment n).closes cs =
    (Open.code n).closes (Cursor.dropWhile (· != '\n') ⟨offset, cs⟩).rest := by
  show _ = (Open.code n).closes (cs.dropWhile (· != '\n'))
  induction cs with
  | nil => rfl
  | cons c cs ih =>
    rw [List.dropWhile_cons]
    by_cases newline : c = '\n'
    · subst newline
      rfl
    · rw [if_pos (bne_iff_ne.mpr newline), ← ih]
      exact Open.closes_cons (by simp [Open.after?, newline])

/-- A comment is skipped up to the end of its line. -/
theorem goesOn_skipComment {k l : PUnit → Reader α}
    (later : ∀ rest, GoesOn more firm (.code n) next (k ⟨⟩) (l ⟨⟩) rest) :
    GoesOn more firm (.code n) next (skipComment >>= k) (skipComment >>= l) cs := by
  have comment : GoesOn more firm (.code n) (fun _ => .code n) skipComment skipComment cs := by
    refine goesOn_peek_is (k := fun hash => if hash then modify (Cursor.dropWhile (· != '\n')) else pure ⟨⟩)
      (l := fun hash => if hash then modify (Cursor.dropWhile (· != '\n')) else pure ⟨⟩)
      (by decide) (fun rest starts => ?_) (goesOn_pure rfl)
    subst starts
    refine goesOn_modify (k := pure) (l := pure) (fun o => ?_)
      (fun o _ => (dropWhile_goesOn more rfl o _).2) fun _ => goesOn_pure rfl
    exact closes_comment o rest
  exact goesOn_bind comment fun _ rest => later rest

/-! ### Attempts and repetitions -/

/-- **An attempt**: if it fails on the shorter text it fails on the longer one. -/
theorem goesOn_attempt {x y : Reader (Option α)} {cs : List Char}
    (h : GoesOn more True s (fun _ => s) x y cs) :
    GoesOn more firm s (fun _ => s) (attempt x) (attempt y) cs where
  closes {offset found c'} hx := by
    rcases attempt_ok hx with ⟨a, -, run⟩ | ⟨-, rfl⟩
    · exact h.closes run
    · rfl
  found {offset found c'} hx closed := by
    unfold attempt at hx ⊢
    rcases run : x ⟨offset, cs⟩ with stop | ⟨a, c₁⟩ <;> rw [run] at hx
    · cases stop with
      | problem e =>
        obtain ⟨e', he'⟩ := h.fails run trivial closed
        cases hx
        rw [he']
      | exhausted => exact nomatch hx
    · rw [h.found run closed]
      cases a <;> cases hx <;> rfl
  fails {offset e} hx _ _ := by
    unfold attempt at hx
    split at hx <;> exact nomatch hx

/-- What is open after a round: the same if another round follows. -/
def afterRound (s t : Open) : Round α → Open
  | .more _ => s
  | .stop | .last _ => t

/-- Repetition takes as many rounds on both texts. -/
theorem goesOn_repeated {t : Open} {round round' : Reader (Round α)}
    (h : ∀ cs, GoesOn more firm s (afterRound s t) round round' cs) (limit : Nat) :
    GoesOn more firm s (fun _ => t) (repeated limit round) (repeated limit round') cs := by
  unfold repeated
  generalize ([] : List α) = items
  induction limit generalizing items cs with
  | zero => exact ⟨nofun, nofun, nofun⟩
  | succ limit ih =>
    refine goesOn_bind (h cs) fun r rest => ?_
    cases r with
    | stop => exact goesOn_pure rfl
    | last item => exact goesOn_pure rfl
    | more item => exact ih _

end Reader

end ValueShell
