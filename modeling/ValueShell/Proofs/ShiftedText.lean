/-
  The same text further on.

  A reader does not care where in the code its text stands; only the spans of what it reads tell.  So a text that
  is read at some place is read the same `by` bytes further on, and the result is the same tree with every
  span moved that far (`Chunk.shift`).

  `Shifts` says this of one reader.  It is closed under everything that the grammar is made of, so the rules
  go through the grammar in its order, and the nesting is closed by induction.
-/
import ValueShell.Proofs.ReaderRuns
import ValueShell.Syntax.Grammar

namespace ValueShell

/-! ## Moving a tree -/

/-- The span `by` bytes further on. -/
def Span.shift (k : Nat) (s : Span) : Span := ⟨s.start + k, s.stop + k⟩

/-- The parameter `k` bytes further on. -/
def Param.shift (k : Nat) (p : Param) : Param := ⟨p.name, p.span.shift k⟩

mutual

/-- The chunk `k` bytes further on. -/
def Chunk.shift (k : Nat) : Chunk → Chunk
  | ⟨pipelines, span⟩ => ⟨shiftPipelines k pipelines, span.shift k⟩

/-- The pipelines, each `k` bytes further on. -/
def shiftPipelines (k : Nat) : List Pipeline → List Pipeline
  | [] => []
  | p :: ps => p.shift k :: shiftPipelines k ps

/-- The pipeline `k` bytes further on. -/
def Pipeline.shift (k : Nat) : Pipeline → Pipeline
  | ⟨forms, span⟩ => ⟨shiftForms k forms, span.shift k⟩

/-- The forms, each `k` bytes further on. -/
def shiftForms (k : Nat) : List Form → List Form
  | [] => []
  | f :: fs => f.shift k :: shiftForms k fs

/-- The form `k` bytes further on. -/
def Form.shift (k : Nat) : Form → Form
  | .assign assignments span => .assign (shiftAssignments k assignments) (span.shift k)
  | .command head args span => .command (head.shift k) (shiftCompounds k args) (span.shift k)

/-- The assignments, each `k` bytes further on. -/
def shiftAssignments (k : Nat) : List Assignment → List Assignment
  | [] => []
  | a :: as => a.shift k :: shiftAssignments k as

/-- The assignment `k` bytes further on. -/
def Assignment.shift (k : Nat) : Assignment → Assignment
  | ⟨left, right, span⟩ => ⟨left.shift k, shiftCompounds k right, span.shift k⟩

/-- The compounds, each `k` bytes further on. -/
def shiftCompounds (k : Nat) : List Compound → List Compound
  | [] => []
  | c :: cs => c.shift k :: shiftCompounds k cs

/-- The compound `k` bytes further on. -/
def Compound.shift (k : Nat) : Compound → Compound
  | ⟨indexings, span⟩ => ⟨shiftIndexings k indexings, span.shift k⟩

/-- The indexings, each `k` bytes further on. -/
def shiftIndexings (k : Nat) : List Indexing → List Indexing
  | [] => []
  | i :: is => i.shift k :: shiftIndexings k is

/-- The indexing `k` bytes further on. -/
def Indexing.shift (k : Nat) : Indexing → Indexing
  | ⟨head, brackets, span⟩ => ⟨head.shift k, shiftBrackets k brackets, span.shift k⟩

/-- The brackets, each `k` bytes further on. -/
def shiftBrackets (k : Nat) : List Bracket → List Bracket
  | [] => []
  | b :: bs => b.shift k :: shiftBrackets k bs

/-- The bracket `k` bytes further on. -/
def Bracket.shift (k : Nat) : Bracket → Bracket
  | ⟨items, span⟩ => ⟨shiftCompounds k items, span.shift k⟩

/-- The primary `k` bytes further on. -/
def Primary.shift (k : Nat) : Primary → Primary
  | .bareword text span => .bareword text (span.shift k)
  | .singleQuoted text span => .singleQuoted text (span.shift k)
  | .doubleQuoted text span => .doubleQuoted text (span.shift k)
  | .reference text span => .reference text (span.shift k)
  | .capture chunk span => .capture (chunk.shift k) (span.shift k)
  | .list items span => .list (shiftCompounds k items) (span.shift k)
  | .map pairs span => .map (shiftPairs k pairs) (span.shift k)
  | .lambda params body span => .lambda (params.map (Param.shift k)) (body.shift k) (span.shift k)
  | .braced items span => .braced (shiftCompounds k items) (span.shift k)

/-- The pairs, each `k` bytes further on. -/
def shiftPairs (k : Nat) : List MapPair → List MapPair
  | [] => []
  | p :: ps => p.shift k :: shiftPairs k ps

/-- The pair `k` bytes further on. -/
def MapPair.shift (k : Nat) : MapPair → MapPair
  | ⟨key, value, span⟩ => ⟨key.shift k, value.shift k, span.shift k⟩

end

section Lists

variable (k : Nat)

/-- What goes through a list one by one maps it. -/
theorem eq_map_of_cons {α : Type} {f : α → α} {g : List α → List α} (nil : g [] = [])
    (cons : ∀ a as, g (a :: as) = f a :: g as) (as : List α) : g as = as.map f := by
  induction as with
  | nil => exact nil
  | cons a as ih => rw [cons, ih, List.map_cons]

/-- To shift a list of pipelines is to shift each of them. -/
theorem shiftPipelines_eq (ps : List Pipeline) : shiftPipelines k ps = ps.map (Pipeline.shift k) :=
  eq_map_of_cons rfl (fun _ _ => rfl) ps

theorem shiftForms_eq (fs : List Form) : shiftForms k fs = fs.map (Form.shift k) :=
  eq_map_of_cons rfl (fun _ _ => rfl) fs

theorem shiftAssignments_eq (as : List Assignment) :
    shiftAssignments k as = as.map (Assignment.shift k) := eq_map_of_cons rfl (fun _ _ => rfl) as

theorem shiftCompounds_eq (cs : List Compound) : shiftCompounds k cs = cs.map (Compound.shift k) :=
  eq_map_of_cons rfl (fun _ _ => rfl) cs

theorem shiftIndexings_eq (is : List Indexing) : shiftIndexings k is = is.map (Indexing.shift k) :=
  eq_map_of_cons rfl (fun _ _ => rfl) is

theorem shiftBrackets_eq (bs : List Bracket) : shiftBrackets k bs = bs.map (Bracket.shift k) :=
  eq_map_of_cons rfl (fun _ _ => rfl) bs

theorem shiftPairs_eq (ps : List MapPair) : shiftPairs k ps = ps.map (MapPair.shift k) :=
  eq_map_of_cons rfl (fun _ _ => rfl) ps

end Lists

/-! ## Nothing but the spans is different -/

section Kept

variable {k : Nat}

/-- A shift keeps how many parts a word has. -/
theorem Compound.indexings_shift (c : Compound) :
    (c.shift k).indexings = c.indexings.map (Indexing.shift k) := by
  obtain ⟨indexings, span⟩ := c
  exact shiftIndexings_eq k indexings

theorem Compound.isEmpty_shift (c : Compound) :
    (c.shift k).indexings.isEmpty = c.indexings.isEmpty := by
  rw [indexings_shift, List.isEmpty_map]

/-- A shift does not touch texts. -/
theorem Primary.bareword?_shift (p : Primary) : (p.shift k).bareword? = p.bareword? := by
  cases p <;> rfl

/-- So a word that is a bareword stays one, with its text. -/
theorem Compound.bareword?_shift (c : Compound) : (c.shift k).bareword? = c.bareword? := by
  obtain ⟨_ | ⟨⟨head, _ | ⟨bracket, brackets⟩, _⟩, _ | ⟨second, others⟩⟩, _⟩ := c
  · rfl
  · exact head.bareword?_shift
  · rfl
  · rfl
  · rfl

/-- The span of a word is shifted with it. -/
theorem Compound.span_shift (c : Compound) : (c.shift k).span = c.span.shift k := by
  obtain ⟨indexings, span⟩ := c
  rfl

theorem Assignment.span_shift (a : Assignment) : (a.shift k).span = a.span.shift k := by
  obtain ⟨left, right, span⟩ := a
  rfl

theorem Form.span_shift (f : Form) : (f.shift k).span = f.span.shift k := by
  cases f <;> rfl

/-- What ends with its last part ends with it further on. -/
theorem spanTo_shift {α : Type} (spanOf : α → Span) (shift : α → α)
    (h : ∀ a, spanOf (shift a) = (spanOf a).shift k) (start stop : Nat) (parts : List α) :
    Grammar.spanTo (start + k) (stop + k) ((parts.map shift).map spanOf) =
      (Grammar.spanTo start stop (parts.map spanOf)).shift k := by
  have last : ((parts.map shift).map spanOf).getLast? = (parts.map spanOf).getLast?.map (Span.shift k) := by
    rw [List.map_map, ← List.getLast?_map, List.map_map]
    congr 2
    funext a
    exact h a
  unfold Grammar.spanTo
  rw [last]
  cases (parts.map spanOf).getLast? <;> rfl

end Kept

/-! ## Readers further on -/

/-- The cursor on the same text, `k` bytes further on. -/
def Cursor.shift (k : Nat) (c : Cursor) : Cursor := ⟨c.offset + k, c.rest⟩

/-- What a round asks for, with its item changed. -/
def Round.map {α β : Type} (f : α → β) : Round α → Round β
  | .stop => .stop
  | .last a => .last (f a)
  | .more a => .more (f a)

/-- **`y` does `k` bytes further on what `x` does**, where `f` moves what is found. -/
structure Reader.Shifts {α β : Type} (k : Nat) (f : α → β) (x : Reader α) (y : Reader β) : Prop where
  found : ∀ {c a c'}, x c = .ok (a, c') → y (c.shift k) = .ok (f a, c'.shift k)
  fails : ∀ {c e}, x c = .error (.problem e) → ∃ e', y (c.shift k) = .error (.problem e')

open TextReader Reader

section Rules

variable {α α' β β' : Type} {k : Nat} {f : α → β}

/-- What is returned has to be shifted, and nothing is read. -/
theorem shifts_pure {a : α} {b : β} (h : b = f a) : Shifts k f (pure a) (pure b) where
  found := by
    rintro c a' c' run
    cases run
    rw [h]
    rfl
  fails := nofun

/-- Two readers after one another, where the second is given the shifted result of the first. -/
theorem shifts_bind {g : α' → β'} {x : Reader α'} {y : Reader β'} {next : α' → Reader α}
    {next' : β' → Reader β} (h : Shifts k g x y) (later : ∀ a, Shifts k f (next a) (next' (g a))) :
    Shifts k f (x >>= next) (y >>= next') where
  found run := by
    obtain ⟨a, c₁, first, second⟩ := run_bind_ok run
    rw [run_bind (h.found first)]
    exact (later a).found second
  fails {c e} run := by
    change (x c).bind (fun p => next p.1 p.2) = _ at run
    rcases first : x c with stop | ⟨a, c₁⟩ <;> rw [first] at run
    · cases run
      obtain ⟨e', failed⟩ := h.fails first
      refine ⟨e', ?_⟩
      change (y (c.shift k)).bind _ = _
      rw [failed]
      rfl
    · rw [run_bind (h.found first)]
      exact (later a).fails run

/-- What is found is the same. -/
theorem shifts_then {x y : Reader α'} {next : α' → Reader α} {next' : α' → Reader β} (h : Shifts k id x y)
    (later : ∀ a, Shifts k f (next a) (next' a)) : Shifts k f (x >>= next) (y >>= next') :=
  shifts_bind h later

/-- The offset is what a shift is about: it is `k` higher. -/
theorem shifts_offset {next : Nat → Reader α} {next' : Nat → Reader β}
    (later : ∀ o, Shifts k f (next o) (next' (o + k))) :
    Shifts k f (offset >>= next) (offset >>= next') where
  found {c _ _} run := (later c.offset).found run
  fails {c _} run := (later c.offset).fails run

/-- What comes next does not depend on where it stands. -/
theorem shifts_peek {next : Option Char → Reader α} {next' : Option Char → Reader β}
    (later : ∀ ch, Shifts k f (next ch) (next' ch)) : Shifts k f (peek? >>= next) (peek? >>= next') where
  found {c _ _} run := (later c.rest.head?).found run
  fails {c _} run := (later c.rest.head?).fails run

theorem shifts_second {next : Option Char → Reader α} {next' : Option Char → Reader β}
    (later : ∀ ch, Shifts k f (next ch) (next' ch)) :
    Shifts k f (second? >>= next) (second? >>= next') where
  found {c _ _} run := (later c.rest.tail.head?).found run
  fails {c _} run := (later c.rest.tail.head?).fails run

/-- A span from a shifted start is the shifted span. -/
theorem shifts_spanFrom {start : Nat} {next : Span → Reader α} {next' : Span → Reader β}
    (later : ∀ s : Span, Shifts k f (next s) (next' (s.shift k))) :
    Shifts k f (spanFrom start >>= next) (spanFrom (start + k) >>= next') where
  found {c _ _} run := (later ⟨start, c.offset⟩).found run
  fails {c _} run := (later ⟨start, c.offset⟩).fails run

/-- A change of the cursor that does not ask where it is. -/
theorem shifts_modify {change : Cursor → Cursor} (same : ∀ c, change (c.shift k) = (change c).shift k)
    {l : PUnit → Reader α} {m : PUnit → Reader β} (later : Shifts k f (l ⟨⟩) (m ⟨⟩)) :
    Shifts k f (modify change >>= l) (modify change >>= m) where
  found {c _ _} run := by
    change m ⟨⟩ (change (c.shift k)) = _
    rw [same]
    exact later.found run
  fails {c _} run := by
    change ∃ e', m ⟨⟩ (change (c.shift k)) = _
    rw [same]
    exact later.fails run

/-- To move by one letter commutes with the shift. -/
theorem next_shift (c : Cursor) : (c.shift k).next = c.next.shift k := by
  obtain ⟨o, _ | ⟨ch, rest⟩⟩ := c
  · exact congrArg (Cursor.mk · []) (Nat.add_right_comm o k 1)
  · exact congrArg (Cursor.mk · rest) (Nat.add_right_comm o k ch.utf8Size)

/-- So does moving past a run of letters. -/
theorem dropWhile_shift (p : Char → Bool) (c : Cursor) :
    (c.shift k).dropWhile p = (c.dropWhile p).shift k :=
  congrArg (Cursor.mk · (c.rest.dropWhile p)) (Nat.add_right_comm c.offset k _)

/-- And so does skipping, with the comments in between. -/
theorem skip_shift (separator : Char → Bool) (commented : Bool) (o : Nat) (cs : List Char) :
    Cursor.skip separator commented (o + k) cs = (Cursor.skip separator commented o cs).shift k := by
  induction cs generalizing commented o with
  | nil => cases commented <;> rfl
  | cons ch cs ih =>
    have further : o + k + ch.utf8Size = o + ch.utf8Size + k := Nat.add_right_comm o k ch.utf8Size
    cases commented with
    | true =>
      rw [Cursor.skip, Cursor.skip, further]
      exact ih _ _
    | false =>
      rw [Cursor.skip, Cursor.skip, further]
      split
      · exact ih _ _
      · split
        · exact ih _ _
        · rfl

theorem shifts_advance {next : Unit → Reader α} {next' : Unit → Reader β}
    (later : Shifts k f (next ()) (next' ())) : Shifts k f (advance >>= next) (advance >>= next') :=
  shifts_modify next_shift later

/-- A run of letters is the same run. -/
theorem shifts_munch {p : Char → Bool} {next : List Char → Reader α} {next' : List Char → Reader β}
    (later : ∀ run, Shifts k f (next run) (next' run)) :
    Shifts k f (munch p >>= next) (munch p >>= next') where
  found {c _ _} run := by
    change next' (c.rest.takeWhile p) ((c.shift k).dropWhile p) = _
    rw [dropWhile_shift]
    exact (later _).found run
  fails {c _} run := by
    change ∃ e', next' (c.rest.takeWhile p) ((c.shift k).dropWhile p) = _
    rw [dropWhile_shift]
    exact (later _).fails run

theorem shifts_skipSpaces {next : PUnit → Reader α} {next' : PUnit → Reader β}
    (later : Shifts k f (next ⟨⟩) (next' ⟨⟩)) :
    Shifts k f (skipSpaces >>= next) (skipSpaces >>= next') :=
  shifts_modify (dropWhile_shift isSpace) later

theorem shifts_skipBlank {next : PUnit → Reader α} {next' : PUnit → Reader β}
    (later : Shifts k f (next ⟨⟩) (next' ⟨⟩)) : Shifts k f (skipBlank >>= next) (skipBlank >>= next') :=
  shifts_modify (fun c => skip_shift _ _ c.offset c.rest) later

theorem shifts_skipSeparators {next : PUnit → Reader α} {next' : PUnit → Reader β}
    (later : Shifts k f (next ⟨⟩) (next' ⟨⟩)) :
    Shifts k f (skipSeparators >>= next) (skipSeparators >>= next') :=
  shifts_modify (fun c => skip_shift _ _ c.offset c.rest) later

theorem shifts_skipComment {next : PUnit → Reader α} {next' : PUnit → Reader β}
    (later : Shifts k f (next ⟨⟩) (next' ⟨⟩)) :
    Shifts k f (skipComment >>= next) (skipComment >>= next') := by
  have comment : Shifts k id skipComment skipComment := by
    refine shifts_peek fun ch => ?_
    split
    · exact shifts_modify (l := pure) (m := pure) (dropWhile_shift _) (shifts_pure rfl)
    · exact shifts_pure rfl
  exact shifts_then comment fun _ => later

/-- Whether a form ends here depends on the next letter only. -/
theorem shifts_atFormEnd {next : Bool → Reader α} {next' : Bool → Reader β}
    (later : ∀ ended, Shifts k f (next ended) (next' ended)) :
    Shifts k f (atFormEnd >>= next) (atFormEnd >>= next') := by
  have ended : Shifts k id atFormEnd atFormEnd := shifts_peek fun ch => by
    cases ch <;> exact shifts_pure rfl
  exact shifts_then ended later

/-- Who finds a problem finds one further on. -/
theorem shifts_problem {x : Reader α} {y : Reader β} (hx : ∀ c, ∃ e, x c = .error (.problem e))
    (hy : ∀ c, ∃ e, y c = .error (.problem e)) : Shifts k f x y where
  found {c a c'} run := by
    obtain ⟨e, failed⟩ := hx c
    exact nomatch failed.symm.trans run
  fails {c _} _ := hy (c.shift k)

/-- Both sides take the same branch. -/
theorem shifts_ite {p q : Prop} [Decidable p] [Decidable q] (h : p ↔ q) {x x' : Reader α}
    {y y' : Reader β} (yes : Shifts k f x y) (no : Shifts k f x' y') :
    Shifts k f (if p then x else x') (if q then y else y') := by
  by_cases holds : p
  · rw [if_pos holds, if_pos (h.mp holds)]
    exact yes
  · rw [if_neg holds, if_neg fun hq => holds (h.mpr hq)]
    exact no

/-- Nothing is said of a reader that fails, so that problems and spans may differ. -/
theorem shifts_failAt {problem problem' : ParseProblem} {span span' : Span} :
    Shifts k f (failAt problem span) (failAt problem' span') :=
  shifts_problem (fun _ => ⟨_, rfl⟩) fun _ => ⟨_, rfl⟩

theorem shifts_failFrom {problem : ParseProblem} {start start' : Nat} :
    Shifts k f (failFrom start problem) (failFrom start' problem) :=
  shifts_problem (fun _ => ⟨_, rfl⟩) fun _ => ⟨_, rfl⟩

theorem shifts_unexpected : Shifts k f unexpected unexpected := by
  have failing : ∀ {γ : Type} (c : Cursor), ∃ e, (unexpected : Reader γ) c = .error (.problem e) := by
    rintro γ ⟨o, _ | ⟨ch, rest⟩⟩
    · exact ⟨_, rfl⟩
    · exact ⟨_, rfl⟩
  exact shifts_problem failing failing

/-- An attempt succeeds on both sides or on none. -/
theorem shifts_attempt {x : Reader (Option α)} {y : Reader (Option β)} (h : Shifts k (Option.map f) x y) :
    Shifts k (Option.map f) (attempt x) (attempt y) where
  found {c found c'} run := by
    unfold attempt at run ⊢
    rcases tried : x c with stop | ⟨a, c₁⟩ <;> rw [tried] at run
    · cases stop with
      | problem e =>
        obtain ⟨e', failed⟩ := h.fails tried
        rw [failed]
        cases run
        rfl
      | exhausted => exact nomatch run
    · rw [h.found tried]
      cases a <;> cases run <;> rfl
  fails {c e} run := by
    unfold attempt at run
    split at run <;> exact nomatch run

/-- Repetition takes as many rounds on both sides. -/
theorem shifts_repeated {limit : Nat} {round : Reader (Round α)} {round' : Reader (Round β)}
    (h : Shifts k (Round.map f) round round') :
    Shifts k (List.map f) (repeated limit round) (repeated limit round') := by
  suffices ∀ limit items, Shifts k (List.map f) (repeatedOnto round limit items)
      (repeatedOnto round' limit (items.map f)) from this limit []
  intro limit
  induction limit with
  | zero => exact fun _ => ⟨nofun, nofun⟩
  | succ limit ih =>
    intro items
    refine shifts_bind h fun r => ?_
    cases r with
    | stop => exact shifts_pure List.map_reverse.symm
    | last item => exact shifts_pure (by rw [List.map_reverse, List.map_cons])
    | more item => exact ih (item :: items)

end Rules

/-! ## Strings and names -/

section Strings

variable {k : Nat}

/-- The digits of a code point; where the escape started only counts for the problem. -/
theorem shifts_codePoint {start start' base digits acc : Nat} :
    Shifts k id (codePoint start base digits acc) (codePoint start' base digits acc) := by
  induction digits generalizing acc with
  | zero => exact shifts_pure rfl
  | succ digits ih =>
    refine shifts_peek fun ch => ?_
    split
    · exact shifts_advance ih
    · exact shifts_failFrom

theorem shifts_escape : Shifts k id escape escape := by
  refine shifts_offset fun start => shifts_advance (shifts_peek fun ch => ?_)
  dsimp only
  split
  iterate 8 exact shifts_advance (shifts_pure rfl)
  · exact shifts_advance shifts_codePoint
  · split
    · exact shifts_codePoint
    · exact shifts_advance shifts_failFrom

/-- A text between single quotes is the same text. -/
theorem shifts_singleQuoted (limit : Nat) : Shifts k id (singleQuoted limit) (singleQuoted limit) := by
  refine shifts_offset fun start => shifts_advance ?_
  refine shifts_bind (shifts_repeated (f := id) (shifts_peek fun ch => ?_)) fun chars => ?_
  · split
    · exact shifts_failFrom
    · refine shifts_advance (shifts_peek fun ch => ?_)
      split
      · exact shifts_advance (shifts_pure rfl)
      · exact shifts_pure rfl
    · exact shifts_advance (shifts_pure rfl)
  · rw [List.map_id]
    exact shifts_pure rfl

/-- Between double quotes, too, with its escapes. -/
theorem shifts_doubleQuoted (limit : Nat) : Shifts k id (doubleQuoted limit) (doubleQuoted limit) := by
  refine shifts_offset fun start => shifts_advance ?_
  refine shifts_bind (shifts_repeated (f := id) (shifts_peek fun ch => ?_)) fun chars => ?_
  · split
    · exact shifts_failFrom
    · exact shifts_advance (shifts_pure rfl)
    · exact shifts_then shifts_escape fun _ => shifts_pure rfl
    · exact shifts_advance (shifts_pure rfl)
  · rw [List.map_id]
    exact shifts_pure rfl

/-- The closing letter is there on both sides or on none. -/
theorem shifts_closeWith {closer : Char} {what : Construct} {start start' : Nat} :
    Shifts k id (closeWith closer what start) (closeWith closer what start') := by
  refine shifts_peek fun ch => ?_
  split
  · exact shifts_modify (l := pure) (m := pure) next_shift (shifts_pure rfl)
  · exact shifts_failFrom

end Strings

/-! ## The grammar -/

namespace Grammar

/-- What may stand inside a delimiter, further on. -/
structure Inner.Shifts (k : Nat) (i : Inner) : Prop where
  chunk : ∀ closer, Reader.Shifts k (Chunk.shift k) (i.chunk closer) (i.chunk closer)
  compound : ∀ around, Reader.Shifts k (Compound.shift k) (i.compound around) (i.compound around)

section

variable {limit k : Nat}

/-- The text after a dollar sign. -/
theorem shifts_variableName : Shifts k id variableName variableName := by
  have name : ∀ {start start' : Nat} (text : List Char → String), Shifts k id
      (munch isVariableChar >>= fun name =>
        if name.isEmpty then failFrom start .emptyVariableName else return text name)
      (munch isVariableChar >>= fun name =>
        if name.isEmpty then failFrom start' .emptyVariableName else return text name) := by
    intro start start' text
    refine shifts_munch fun run => ?_
    split
    · exact shifts_failFrom
    · exact shifts_pure rfl
  refine shifts_offset fun start => shifts_advance (shifts_peek fun ch => ?_)
  dsimp only
  split
  · exact shifts_advance (name fun rest => String.ofList ('@' :: rest))
  · exact name String.ofList

/-- A bareword keeps its text, and its span moves. -/
theorem shifts_bareword? (around : Surroundings) :
    Shifts k (Option.map (Primary.shift k)) (bareword? around) (bareword? around) := by
  refine shifts_offset fun start => shifts_munch fun run => ?_
  split
  · exact shifts_pure rfl
  · exact shifts_spanFrom fun s => shifts_pure rfl

variable {i : Inner} (hi : i.Shifts k)
include hi

/-- The words between brackets. -/
theorem shifts_items (closer : Char) (what : Construct) :
    Shifts k (List.map (Compound.shift k)) (items limit i closer what) (items limit i closer what) := by
  refine shifts_offset fun start => shifts_repeated (shifts_skipBlank (shifts_peek fun ch => ?_))
  split
  · exact shifts_failFrom
  · split
    · exact shifts_advance (shifts_pure rfl)
    · refine shifts_bind (hi.compound _) fun item => ?_
      rw [item.isEmpty_shift]
      split
      · exact shifts_unexpected
      · exact shifts_pure rfl

/-- The body of a lambda is code of its own, given by the inner readers. -/
theorem shifts_lambdaBody : Shifts k (Chunk.shift k) (lambdaBody i) (lambdaBody i) := by
  refine shifts_offset fun start => shifts_advance (shifts_bind (hi.chunk _) fun body => ?_)
  exact shifts_then shifts_closeWith fun _ => shifts_pure rfl

/-- The pairs of a map, which start at the shifted bracket. -/
theorem shifts_mapPairs (start : Nat) :
    Shifts k (List.map (MapPair.shift k)) (mapPairs limit i start) (mapPairs limit i (start + k)) := by
  refine shifts_repeated (shifts_skipBlank (shifts_peek fun ch => ?_))
  split
  · exact shifts_failFrom
  · exact shifts_advance (shifts_pure rfl)
  · refine shifts_offset fun pairStart => shifts_advance (shifts_peek fun ch => ?_)
    split
    · exact shifts_advance (shifts_pure rfl)
    · refine shifts_bind (hi.compound _) fun key => shifts_peek fun sign => ?_
      rw [key.isEmpty_shift]
      split
      · exact shifts_failFrom
      · refine shifts_advance (shifts_bind (hi.compound _) fun value => ?_)
        exact shifts_spanFrom fun s => shifts_pure rfl
  · exact shifts_unexpected

omit hi in
/-- Parameters are made from words that have been read, and so are those of shifted words. -/
theorem shifts_params (found : List Compound) :
    Shifts k (List.map (Param.shift k)) (params found) (params (found.map (Compound.shift k))) := by
  induction found with
  | nil => exact shifts_pure rfl
  | cons item found ih =>
    rw [List.map_cons]
    unfold params
    rw [item.bareword?_shift, item.span_shift]
    split
    · exact shifts_bind ih fun later => shifts_pure rfl
    · exact shifts_failAt

/-- A list or a map. -/
theorem shifts_bracketed (start : Nat) :
    Shifts k (Primary.shift k) (bracketed limit i start) (bracketed limit i (start + k)) := by
  refine shifts_advance (shifts_skipBlank (shifts_peek fun ch => ?_))
  split
  · refine shifts_bind (shifts_mapPairs hi start) fun pairs => shifts_spanFrom fun s => shifts_pure ?_
    rw [← shiftPairs_eq]
    rfl
  · refine shifts_bind (shifts_items hi _ _) fun found => shifts_peek fun ch => ?_
    split
    · refine shifts_bind (shifts_params found) fun names => ?_
      refine shifts_bind (shifts_lambdaBody hi) fun body => ?_
      exact shifts_spanFrom fun s => shifts_pure rfl
    · refine shifts_spanFrom fun s => shifts_pure ?_
      rw [← shiftCompounds_eq]
      rfl

theorem shifts_bracedItems :
    Shifts k (List.map (Compound.shift k)) (bracedItems limit i) (bracedItems limit i) := by
  refine shifts_offset fun start => shifts_advance (shifts_repeated (shifts_skipBlank ?_))
  refine shifts_bind (hi.compound _) fun item => shifts_skipBlank (shifts_peek fun ch => ?_)
  split
  · exact shifts_advance (shifts_pure rfl)
  · exact shifts_advance (shifts_pure rfl)
  · exact shifts_failFrom
  · exact shifts_unexpected

/-- What a word starts with: any of the primaries. -/
theorem shifts_primary? (around : Surroundings) :
    Shifts k (Option.map (Primary.shift k)) (primary? limit i around) (primary? limit i around) := by
  refine shifts_offset fun start => shifts_peek fun ch => ?_
  split
  · exact shifts_pure rfl
  · exact shifts_then (shifts_singleQuoted limit) fun _ => shifts_spanFrom fun _ => shifts_pure rfl
  · exact shifts_then (shifts_doubleQuoted limit) fun _ => shifts_spanFrom fun _ => shifts_pure rfl
  · exact shifts_then shifts_variableName fun _ => shifts_spanFrom fun _ => shifts_pure rfl
  · refine shifts_advance (shifts_bind (hi.chunk _) fun chunk => ?_)
    exact shifts_then shifts_closeWith fun _ => shifts_spanFrom fun _ => shifts_pure rfl
  · exact shifts_bind (shifts_bracketed hi start) fun _ => shifts_pure rfl
  · refine shifts_second fun ch => ?_
    split
    · exact shifts_bind (shifts_lambdaBody hi) fun _ => shifts_spanFrom fun _ => shifts_pure rfl
    · refine shifts_bind (shifts_bracedItems hi) fun _ => shifts_spanFrom fun _ => shifts_pure ?_
      rw [← shiftCompounds_eq]
      rfl
  · exact shifts_bareword? around

/-- An index in brackets, after a word. -/
theorem shifts_bracket : Shifts k (Bracket.shift k) (bracket limit i) (bracket limit i) := by
  refine shifts_offset fun start => shifts_advance (shifts_bind (shifts_items hi _ _) fun found => ?_)
  refine shifts_spanFrom fun s => shifts_pure ?_
  rw [← shiftCompounds_eq]
  rfl

/-- A primary with its indices. -/
theorem shifts_indexing? (around : Surroundings) :
    Shifts k (Option.map (Indexing.shift k)) (indexing? limit i around) (indexing? limit i around) := by
  refine shifts_offset fun start => shifts_bind (shifts_primary? hi around) fun found => ?_
  cases found with
  | none => exact shifts_pure rfl
  | some head =>
    refine shifts_bind (shifts_repeated (f := Bracket.shift k) (shifts_peek fun ch => ?_)) fun brackets => ?_
    · split
      · exact shifts_bind (shifts_bracket hi) fun _ => shifts_pure rfl
      · exact shifts_pure rfl
    · refine shifts_spanFrom fun s => shifts_pure ?_
      rw [← shiftBrackets_eq]
      rfl

/-- A word. -/
theorem shifts_compound (around : Surroundings) :
    Shifts k (Compound.shift k) (compound limit i around) (compound limit i around) := by
  refine shifts_offset fun start => shifts_bind (shifts_repeated (f := Indexing.shift k) ?_) fun found => ?_
  · refine shifts_bind (shifts_indexing? hi around) fun found => ?_
    cases found <;> exact shifts_pure rfl
  · refine shifts_spanFrom fun s => shifts_pure ?_
    rw [← shiftIndexings_eq]
    rfl

/-! ## Forms further on -/

/-- An assignment without spaces, which is tried and may not be there. -/
theorem shifts_compactAssignment? : Shifts k (Option.map (Assignment.shift k))
    (compactAssignment? limit i) (compactAssignment? limit i) := by
  refine shifts_offset fun start => shifts_peek fun ch => ?_
  split
  · exact shifts_pure rfl
  · refine shifts_second fun second => ?_
    split
    · exact shifts_pure rfl
    · refine shifts_bind (shifts_indexing? hi .target) fun found => ?_
      cases found with
      | none => exact shifts_pure rfl
      | some left =>
        obtain ⟨head, brackets, span⟩ := left
        refine shifts_peek fun sign => shifts_ite ?_ (shifts_pure rfl) ?_
        · -- whether it is a target goes by the kind of its head
          cases head <;> exact Iff.rfl
        · refine shifts_advance (shifts_bind (shifts_compound hi _) fun right => ?_)
          exact shifts_spanFrom fun s => shifts_pure rfl

/-- The assignments at the start of a form. -/
theorem shifts_compactAssignments : Shifts k (List.map (Assignment.shift k))
    (compactAssignments limit i) (compactAssignments limit i) := by
  refine shifts_bind (shifts_repeated (f := Assignment.shift k) ?_) fun found => ?_
  · refine shifts_bind (shifts_attempt (shifts_compactAssignment? hi)) fun found => ?_
    cases found with
    | none => exact shifts_pure rfl
    | some assignment =>
      refine shifts_skipSpaces (shifts_atFormEnd fun ended => ?_)
      cases ended <;> exact shifts_pure rfl
  · rw [List.isEmpty_map]
    split
    · exact shifts_pure rfl
    · refine shifts_skipSpaces (shifts_atFormEnd fun ended => ?_)
      cases ended with
      | true => exact shifts_pure rfl
      | false => exact shifts_offset fun o => shifts_failAt

/-- A command, or an assignment with a lone equals sign. -/
theorem shifts_commandForm : Shifts k (Form.shift k) (commandForm limit i) (commandForm limit i) := by
  refine shifts_offset fun start => shifts_bind (shifts_compound hi _) fun head => ?_
  rw [head.isEmpty_shift]
  split
  · exact shifts_unexpected
  · refine shifts_bind (shifts_repeated (f := Compound.shift k) ?_) fun args => ?_
    · refine shifts_skipSpaces (shifts_atFormEnd fun ended => ?_)
      cases ended with
      | true => exact shifts_pure rfl
      | false =>
        refine shifts_bind (shifts_compound hi _) fun arg => ?_
        rw [arg.isEmpty_shift]
        split
        · exact shifts_unexpected
        · exact shifts_pure rfl
    · have span := spanTo_shift _ _ (Compound.span_shift (k := k)) start head.span.stop args
      have stop : (head.shift k).span.stop = head.span.stop + k := by
        rw [head.span_shift]
        rfl
      dsimp only
      rw [stop, span]
      cases args with
      | nil => exact shifts_pure rfl
      | cons second values =>
        rw [List.map_cons (f := Compound.shift k)]
        dsimp only
        rw [second.bareword?_shift, head.indexings_shift]
        split
        · rcases head.indexings with _ | ⟨left, _ | ⟨other, others⟩⟩
          · exact shifts_failAt
          · refine shifts_pure ?_
            rw [← shiftCompounds_eq]
            rfl
          · exact shifts_failAt
        · refine shifts_pure ?_
          rw [← List.map_cons (f := Compound.shift k), ← shiftCompounds_eq]
          rfl

/-- A form is assignments or a command. -/
theorem shifts_form : Shifts k (Form.shift k) (form limit i) (form limit i) := by
  refine shifts_offset fun start => shifts_bind (shifts_compactAssignments hi) fun found => ?_
  cases found with
  | nil => exact shifts_commandForm hi
  | cons first later =>
    refine shifts_pure ?_
    have span := spanTo_shift _ _ (Assignment.span_shift (k := k)) start start (first :: later)
    rw [span, ← shiftAssignments_eq]
    rfl

theorem shifts_pipeline : Shifts k (Pipeline.shift k) (pipeline limit i) (pipeline limit i) := by
  refine shifts_offset fun start => shifts_bind (shifts_form hi) fun first => ?_
  refine shifts_bind (shifts_repeated (f := Form.shift k) ?_) fun others => shifts_pure ?_
  · refine shifts_skipSpaces (shifts_peek fun ch => ?_)
    split
    · exact shifts_advance (shifts_skipBlank (shifts_bind (shifts_form hi) fun _ => shifts_pure rfl))
    · exact shifts_pure rfl
  · rw [← List.map_cons, spanTo_shift _ _ Form.span_shift, ← shiftForms_eq]
    rfl

/-- **Code**: separators, pipelines and more separators up to its end. -/
theorem shifts_chunk (closer : Option Char) :
    Shifts k (Chunk.shift k) (chunk limit i closer) (chunk limit i closer) := by
  refine shifts_offset fun start => shifts_bind (shifts_repeated (f := Pipeline.shift k) ?_) fun found => ?_
  · refine shifts_skipSeparators (shifts_peek fun ch => ?_)
    split
    · exact shifts_pure rfl
    · split
      · exact shifts_pure rfl
      · split
        · exact shifts_unexpected
        · refine shifts_bind (shifts_pipeline hi) fun found => ?_
          refine shifts_skipSpaces (shifts_skipComment (shifts_peek fun ch => ?_))
          split
          · exact shifts_pure rfl
          · split
            · exact shifts_pure rfl
            · split
              · exact shifts_pure rfl
              · exact shifts_unexpected
  · refine shifts_spanFrom fun s => shifts_pure ?_
    rw [← shiftPipelines_eq]
    rfl

end

/-- **The grammar does not care where a text stands**, at any depth. -/
theorem inner_shifts (limit depth k : Nat) : (inner limit depth).Shifts k := by
  induction depth with
  | zero => exact ⟨fun _ => ⟨nofun, nofun⟩, fun _ => ⟨nofun, nofun⟩⟩
  | succ depth ih => exact ⟨shifts_chunk ih, shifts_compound ih⟩

end Grammar

end ValueShell
