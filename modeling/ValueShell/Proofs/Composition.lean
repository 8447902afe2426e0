/-
  Parsing is compositional.

  A text is read the same wherever it stands: as a whole, before the next line (`readChunk_append`), and between
  the delimiters of an output capture or of a lambda (`primary?_capture`, `primary?_lambda`).  The grammar has places where
  `=` and `,` mean something else than elsewhere; no such place reaches into a delimiter, since what
  stands inside is read by the same rule as a whole text.

  Three things come together: in a longer text the rounds that read pipelines go on (`JoinedText`), further on in
  a text everything is read further on (`ShiftedText`), and limits are never in the way (`ReaderLimits`, and
  `ErrorSpans` for the limits that a whole text sets).
-/
import ValueShell.Proofs.ErrorSpans
import ValueShell.Proofs.JoinedText
import ValueShell.Proofs.ReadInPlace
import ValueShell.Proofs.ShiftedText

namespace ValueShell

open TextReader Reader

namespace Grammar

variable {limit : Nat} {i : Inner}

/-! ## Whole texts -/

theorem extends_nextPipeline {limit' : Nat} {i' : Inner} (hl : limit ≤ limit') (hi : i.Extends i')
    (closer : Option Char) : Extends (nextPipeline closer limit i) (nextPipeline closer limit' i') := by
  refine extends_then fun _ => extends_then fun next => ?_
  split
  · exact .refl _
  · refine extends_ite (.refl _) (extends_ite (.refl _) ?_)
    exact extends_bind (extends_bind (extends_pipeline hl hi) fun _ => .refl _) fun _ => .refl _

/-- Rounds that come to an end are those of a chunk. -/
theorem chunk_of_rounds {closer : Option Char} {c c' : Cursor} {found : List Pipeline}
    (h : repeatedOnto (nextPipeline closer limit i) limit [] c = .ok (found, c')) :
    chunk limit i closer c = .ok (⟨found, ⟨c.offset, c'.offset⟩⟩, c') := by
  rw [chunk_eq]
  exact (run_bind (k := fun found => (do return ⟨found, ← spanFrom c.offset⟩ : Reader Chunk)) h).trans rfl

end Grammar

/-- **A whole text is read with any limit that is high enough**, so with its own. -/
theorem readChunk_of_chunk {code : String} {limit depth stop : Nat} {found : Chunk}
    (short : byteLength code.toList < UInt32.size)
    (hl : code.toList.length + 1 ≤ limit) (hd : code.toList.length + 1 ≤ depth)
    (run : Grammar.chunk limit (Grammar.inner limit depth) none (Cursor.start code.toList) =
      .ok (found, ⟨stop, []⟩)) : readChunk code = .ok found := by
  have start : (Cursor.start code.toList).At code.toList := ⟨[], rfl, rfl⟩
  have level := inner_answers (Nat.le_refl (code.toList.length + 1))
  have own := answers_chunk level none start (Nat.le_succ _)
  have same : Grammar.chunk (code.toList.length + 1) (Grammar.innermost code.toList) none
      (Cursor.start code.toList) = .ok (found, ⟨stop, []⟩) := by
    rw [← run]
    refine (Grammar.extends_chunk hl (Grammar.extends_inner hl hd) none _ fun exhausted => ?_).symm
    obtain ⟨error, impossible, -⟩ := own.fails exhausted
    exact nomatch impossible
  have whole : Grammar.unit (code.toList.length + 1) (Cursor.start code.toList) =
      .ok (found, ⟨stop, []⟩) := (run_bind same).trans rfl
  exact readChunk_ok_iff.mpr ⟨short, _, whole⟩

section

variable {first second : String} {one two : Chunk}

/-- The text of two lines. -/
theorem toList_lines (first second : String) :
    (first ++ "\n" ++ second).toList = first.toList ++ '\n' :: second.toList := by
  simp [String.toList_append]

/-- A whole text is read with higher limits. -/
theorem chunk_of_higher (h : readChunk first = .ok one) {limit depth : Nat}
    (hl : first.toList.length + 1 ≤ limit) (hd : first.toList.length + 1 ≤ depth) :
    Grammar.chunk limit (Grammar.inner limit depth) none (Cursor.start first.toList) =
      .ok (one, ⟨byteLength first.toList, []⟩) :=
  (Grammar.extends_chunk hl (Grammar.extends_inner hl hd) none).of_ok
    (Grammar.chunk_of_readChunk _ h (Nat.le_refl _))

/-- Its pipelines, and where they end. -/
theorem rounds_of_readChunk (h : readChunk first = .ok one) {limit depth : Nat}
    (hl : first.toList.length + 1 ≤ limit) (hd : first.toList.length + 1 ≤ depth) :
    repeatedOnto (Grammar.nextPipeline none limit (Grammar.inner limit depth)) limit []
      ⟨0, first.toList⟩ = .ok (one.pipelines, ⟨byteLength first.toList, []⟩) :=
  (Grammar.chunk_run (chunk_of_higher h hl hd)).1

/-- The same further on. -/
theorem rounds_of_readChunk_at (h : readChunk first = .ok one) {limit depth : Nat}
    (hl : first.toList.length + 1 ≤ limit) (hd : first.toList.length + 1 ≤ depth) (o : Nat) :
    repeatedOnto (Grammar.nextPipeline none limit (Grammar.inner limit depth)) limit []
      ⟨o, first.toList⟩ = .ok (one.pipelines.map (Pipeline.shift o), ⟨o + byteLength first.toList, []⟩) := by
  have further := (Grammar.shifts_chunk (Grammar.inner_shifts limit depth o) none).found
    (chunk_of_higher h hl hd)
  have place : (Cursor.start first.toList).shift o = ⟨o, first.toList⟩ :=
    congrArg (Cursor.mk · first.toList) (Nat.zero_add o)
  have stop : Cursor.shift o ⟨byteLength first.toList, []⟩ = ⟨o + byteLength first.toList, []⟩ :=
    congrArg (Cursor.mk · []) (Nat.add_comm _ o)
  have pipelines : (one.shift o).pipelines = one.pipelines.map (Pipeline.shift o) := by
    obtain ⟨pipelines, span⟩ := one
    exact shiftPipelines_eq o pipelines
  rw [place, stop] at further
  rw [← pipelines]
  exact (Grammar.chunk_run further).1

/-- **Two texts, one line after the other**, are read as the pipelines of the one and then those of the other. -/
theorem readChunk_append (short : byteLength (first ++ "\n" ++ second).toList < UInt32.size)
    (h₁ : readChunk first = .ok one) (h₂ : readChunk second = .ok two) :
    ∃ whole, readChunk (first ++ "\n" ++ second) = .ok whole ∧
      whole.pipelines =
        one.pipelines ++ two.pipelines.map (Pipeline.shift (byteLength first.toList + 1)) := by
  have text := toList_lines first second
  let room := first.toList.length + second.toList.length + 2
  have less : first.toList.length + 1 ≤ room := by omega
  have less' : second.toList.length + 1 ≤ room := by omega
  have firstRun := rounds_of_readChunk h₁ less less
  have secondRun := rounds_of_readChunk_at h₂ less' less' (byteLength first.toList + 1)
  obtain ⟨later, hlater, goesOn⟩ := repeatedOnto_ok secondRun
  obtain rfl : two.pipelines.map (Pipeline.shift (byteLength first.toList + 1)) = later := hlater
  -- the line end is skipped
  have samePlace : Grammar.nextPipeline none room (Grammar.inner room room)
      ⟨byteLength first.toList + 1, second.toList⟩ =
        Grammar.nextPipeline none room (Grammar.inner room room)
          ⟨byteLength first.toList, '\n' :: second.toList⟩ := rfl
  have joined := (Grammar.repeatedOnto_joined Grammar.isCloser_none (Grammar.inner_level room room)
    firstRun).2 ((repeatedOnto_congr samePlace _ _).symm.trans (goesOn _))
  have higher : room ≤ room + room := Nat.le_add_left _ _
  have inner := Grammar.extends_inner higher higher
  have whole := Grammar.chunk_of_rounds ((extends_repeatedOnto (Nat.le_refl _)
    (Grammar.extends_nextPipeline higher inner none) _).of_ok joined)
  rw [List.reverse_reverse, ← text] at whole
  have enough : (first ++ "\n" ++ second).toList.length + 1 ≤ room + room := by
    rw [text, List.length_append, List.length_cons]
    omega
  exact ⟨_, readChunk_of_chunk short enough enough whole, rfl⟩

/-! ## Between delimiters -/

/-- After a line end, a closing bracket ends the rounds. -/
theorem nextPipeline_closed {closer : Char} (closing : Grammar.IsCloser (some closer)) {limit : Nat}
    {i : Grammar.Inner} (o : Nat) (rest : List Char) :
    Grammar.nextPipeline (some closer) limit i ⟨o, '\n' :: closer :: rest⟩ =
      .ok (.stop, ⟨o + 1, closer :: rest⟩) := by
  have stops : ∀ o, Grammar.pipelineHere (some closer) limit i ⟨o, closer :: rest⟩ =
      .ok (.stop, ⟨o, closer :: rest⟩) := by
    intro o
    show (if some closer = some closer then _ else _ : Reader (Round Pipeline)) _ = _
    rw [if_pos rfl]
    rfl
  rw [Grammar.nextPipeline_skip]
  rcases closing closer rfl with rfl | rfl | rfl <;> exact stops (o + 1)

/-- **A text that ends with a line end, before a closing bracket**, is read as it is read alone. -/
theorem rounds_enclosed (h : readChunk first = .ok one) {closer : Char}
    (closing : Grammar.IsCloser (some closer)) {limit depth : Nat}
    (hl : first.toList.length + 2 ≤ limit) (hd : first.toList.length + 1 ≤ depth) (o : Nat)
    (rest : List Char) :
    repeatedOnto (Grammar.nextPipeline (some closer) limit (Grammar.inner limit depth)) limit []
      ⟨o, first.toList ++ '\n' :: closer :: rest⟩ =
        .ok (one.pipelines.map (Pipeline.shift o),
          ⟨o + byteLength first.toList + 1, closer :: rest⟩) := by
  obtain ⟨room, rfl⟩ : ∃ room, limit = room + 1 := Nat.exists_eq_succ_of_ne_zero (by omega)
  have short : first.toList.length + 1 ≤ room := by omega
  have alone := rounds_of_readChunk_at h short hd o
  have ends : ∀ items, repeatedOnto (Grammar.nextPipeline (some closer) room
      (Grammar.inner room depth)) 1 items ⟨o + byteLength first.toList, '\n' :: closer :: rest⟩ =
        .ok (items.reverse, ⟨o + byteLength first.toList + 1, closer :: rest⟩) := fun items =>
    (run_bind (nextPipeline_closed closing _ rest)).trans rfl
  have joined := (Grammar.repeatedOnto_joined closing (Grammar.inner_level room depth) alone).2
    (ends _)
  rw [List.reverse_reverse] at joined
  have higher := Nat.le_succ room
  have inner := Grammar.extends_inner higher (Nat.le_refl depth)
  exact (extends_repeatedOnto (Nat.le_refl _)
    (Grammar.extends_nextPipeline higher inner (some closer)) _).of_ok joined

/-- The text of an output capture of a code. -/
def captureText (code : String) : List Char := '(' :: (code.toList ++ ['\n', ')'])

/-- The text of a lambda of a code. -/
def lambdaText (code : String) : List Char := '{' :: ' ' :: (code.toList ++ ['\n', '}'])

/-- What is read from `captureText`, where it starts at `o`. -/
def captureAt (o : Nat) (code : String) (chunk : Chunk) : Primary :=
  .capture ⟨chunk.pipelines.map (Pipeline.shift (o + 1)), ⟨o + 1, o + 2 + byteLength code.toList⟩⟩
    ⟨o, o + byteLength (captureText code)⟩

/-- What is read from `lambdaText`, where it starts at `o`. -/
def lambdaAt (o : Nat) (code : String) (chunk : Chunk) : Primary :=
  .lambda [] ⟨chunk.pipelines.map (Pipeline.shift (o + 2)), ⟨o + 1, o + 3 + byteLength code.toList⟩⟩
    ⟨o, o + byteLength (lambdaText code)⟩

theorem byteLength_captureText (code : String) :
    byteLength (captureText code) = byteLength code.toList + 3 := by
  have size : ∀ n, 1 + (n + (1 + (1 + 0))) = n + 3 := fun n => by omega
  rw [captureText, byteLength, byteLength_append]
  exact size _

theorem byteLength_lambdaText (code : String) :
    byteLength (lambdaText code) = byteLength code.toList + 4 := by
  have size : ∀ n, 1 + (1 + (n + (1 + (1 + 0)))) = n + 4 := fun n => by omega
  rw [lambdaText, byteLength, byteLength, byteLength_append]
  exact size _

/-- **Code in parentheses** is read as an output capture, whatever is around it. -/
theorem primary?_capture (h : readChunk first = .ok one) {limit depth : Nat}
    (hl : first.toList.length + 2 ≤ limit) (hd : first.toList.length + 2 ≤ depth)
    (around : Surroundings) (o : Nat) (rest : List Char) :
    Grammar.primary? limit (Grammar.inner limit depth) around ⟨o, captureText first ++ rest⟩ =
      .ok (some (captureAt o first one), ⟨o + byteLength (captureText first), rest⟩) := by
  obtain ⟨below, rfl⟩ : ∃ below, depth = below + 1 := Nat.exists_eq_succ_of_ne_zero (by omega)
  have closing : Grammar.IsCloser (some ')') := fun _ same => .inl (Option.some.inj same).symm
  have rounds := rounds_enclosed h closing hl (Nat.le_of_succ_le_succ hd) (o + 1) rest
  have chunk := Grammar.chunk_of_rounds rounds
  have text : captureText first ++ rest = '(' :: (first.toList ++ '\n' :: ')' :: rest) := by
    simp [captureText]
  have stop : o + 1 + byteLength first.toList + 1 = o + 2 + byteLength first.toList := by omega
  have past : o + 2 + byteLength first.toList + 1 = o + byteLength (captureText first) := by
    rw [byteLength_captureText]
    omega
  rw [stop] at chunk
  rw [text, Grammar.primary?_parenthesis]
  refine (run_bind (k := fun chunk => (do
    closeWith ')' .outputCapture o
    return some (.capture chunk (← spanFrom o)) : Reader (Option Primary))) chunk).trans ?_
  rw [captureAt, ← past]
  rfl

/-- **Code in braces**, after a blank, is read as a lambda, whatever is around it. -/
theorem primary?_lambda (h : readChunk first = .ok one) {limit depth : Nat}
    (hl : first.toList.length + 2 ≤ limit) (hd : first.toList.length + 2 ≤ depth)
    (around : Surroundings) (o : Nat) (rest : List Char) :
    Grammar.primary? limit (Grammar.inner limit depth) around ⟨o, lambdaText first ++ rest⟩ =
      .ok (some (lambdaAt o first one), ⟨o + byteLength (lambdaText first), rest⟩) := by
  obtain ⟨below, rfl⟩ : ∃ below, depth = below + 1 := Nat.exists_eq_succ_of_ne_zero (by omega)
  have closing : Grammar.IsCloser (some '}') := fun _ same => .inr (.inr (Option.some.inj same).symm)
  have rounds := rounds_enclosed h closing hl (Nat.le_of_succ_le_succ hd) (o + 2) rest
  -- the blank is skipped as the separators are
  have samePlace : Grammar.nextPipeline (some '}') limit (Grammar.inner limit below)
      ⟨o + 1, ' ' :: (first.toList ++ '\n' :: '}' :: rest)⟩ =
        Grammar.nextPipeline (some '}') limit (Grammar.inner limit below)
          ⟨o + 2, first.toList ++ '\n' :: '}' :: rest⟩ := rfl
  have chunk := Grammar.chunk_of_rounds ((repeatedOnto_congr samePlace _ _).trans rounds)
  have text : lambdaText first ++ rest = '{' :: ' ' :: (first.toList ++ '\n' :: '}' :: rest) := by
    simp [lambdaText]
  have stop : o + 2 + byteLength first.toList + 1 = o + 3 + byteLength first.toList := by omega
  have past : o + 3 + byteLength first.toList + 1 = o + byteLength (lambdaText first) := by
    rw [byteLength_lambdaText]
    omega
  rw [stop] at chunk
  rw [text, Grammar.primary?_brace]
  have body : Grammar.lambdaBody (Grammar.inner limit (below + 1))
      ⟨o, '{' :: ' ' :: (first.toList ++ '\n' :: '}' :: rest)⟩ =
        .ok (⟨one.pipelines.map (Pipeline.shift (o + 2)), ⟨o + 1, o + 3 + byteLength first.toList⟩⟩,
          ⟨o + byteLength (lambdaText first), rest⟩) := by
    refine (run_bind (k := fun body => (do
      closeWith '}' .lambda o
      return body : Reader Chunk)) chunk).trans ?_
    rw [← past]
    rfl
  exact (run_bind (k := fun body => (do
    return some (.lambda [] body (← spanFrom o)) : Reader (Option Primary))) body).trans rfl

/-! ## Anywhere in a text -/

/-- The place in a text is determined by how many bytes are before it. -/
theorem Cursor.At.rest_eq {before after : List Char} {c : Cursor} (here : c.At (before ++ after))
    (h : c.offset = byteLength before) : c.rest = after := by
  obtain ⟨before', split, offset⟩ := here
  have one := dropBytes?_append before after
  have other := dropBytes?_append before' c.rest
  rw [split, ← h, offset, other] at one
  exact Option.some.inj one

/-- **Whatever primary starts there**: where it stands, a text is read that is read the same with all limits
that are high enough. -/
theorem primary_eq_of_starts {code : String} {chunk : Chunk} {p found : Primary}
    {before text : List Char} {stop : Cursor} (room : Nat) (h : readChunk code = .ok chunk)
    (inside : (Node.primary p).Inside (.chunk chunk)) (split : code.toList = before ++ text)
    (starts : p.span.start = byteLength before)
    (reads : ∀ {limit depth}, room ≤ limit → room ≤ depth → ∀ around,
      Grammar.primary? limit (Grammar.inner limit depth) around ⟨byteLength before, text⟩ =
        .ok (some found, stop)) : p = found := by
  obtain ⟨around, depth, ⟨o, rest⟩, c', here, offset, run⟩ := readChunk_inPlace h p inside
  rw [split] at here
  obtain rfl : o = byteLength before := offset.trans starts
  obtain rfl : rest = text := here.rest_eq rfl
  have high := Nat.le_add_right (code.toList.length + 1) room
  have deep := Nat.le_add_right depth room
  have higher := (Grammar.extends_primary? high (Grammar.extends_inner high deep) around).of_ok run
  have known := reads (Nat.le_add_left room (code.toList.length + 1)) (Nat.le_add_left room depth) around
  have same := Except.ok.inj (higher.symm.trans known)
  exact Option.some.inj (congrArg Prod.fst same)

end

end ValueShell
