/-
  A text and the next line, read together.

  Code that can be read is read the same way when it goes on: what it ends with is between two
  pipelines, and that is where the next line begins.  So the pipelines of two texts joined by a line end are
  those of the first and then those of the second (`readChunk_joined`).  Only the places differ: in the
  joined text the second part comes later.  With as many spaces before it as there are bytes before it
  in the joined text, it is read at those very places.

  What goes on is the repetition that reads pipelines (`repeatedOnto_joined`).  It ended at the end of the
  first text; in the joined text it takes its next round there, and that round first skips the line end, as
  it would skip the spaces.
-/
import ValueShell.Proofs.ExactSpans
import ValueShell.Proofs.NextLine

namespace ValueShell

namespace TextReader

/-- The items that are there already have no part in a repetition. -/
theorem repeatedOnto_ok {ε α : Type} {round : TextReader ε (Round α)} {limit : Nat} {items found : List α}
    {c c' : Cursor} (h : repeatedOnto round limit items c = .ok (found, c')) :
    ∃ later, found = items.reverse ++ later ∧
      ∀ items', repeatedOnto round limit items' c = .ok (items'.reverse ++ later, c') := by
  induction limit generalizing items c with
  | zero => exact nomatch h
  | succ limit ih =>
    obtain ⟨r, c₁, first, rest⟩ := run_bind_ok h
    cases r with
    | stop =>
      cases rest
      refine ⟨[], (List.append_nil _).symm, fun items' => (run_bind first).trans ?_⟩
      rw [List.append_nil]
      rfl
    | last item =>
      cases rest
      refine ⟨[item], List.reverse_cons, fun items' => (run_bind first).trans ?_⟩
      rw [← List.reverse_cons]
      rfl
    | more item =>
      obtain ⟨later, hfound, others⟩ := ih rest
      refine ⟨item :: later, ?_, fun items' => (run_bind first).trans ((others _).trans ?_)⟩
      · rw [hfound, List.reverse_cons, List.append_assoc]
        rfl
      · rw [List.reverse_cons, List.append_assoc]
        rfl

/-- Only where the first round leads matters. -/
theorem repeatedOnto_congr {ε α : Type} {round : TextReader ε (Round α)} {c c' : Cursor}
    (h : round c = round c') (rounds : Nat) (items : List α) :
    repeatedOnto round rounds items c = repeatedOnto round rounds items c' := by
  cases rounds with
  | zero => rfl
  | succ rounds =>
    show (round c).bind _ = (round c').bind _
    rw [h]

end TextReader

namespace Grammar

open Reader TextReader

variable {limit : Nat} {i : Inner} {more : List Char}

/-! ## The rounds of a chunk -/

/-- A pipeline, and what is left of its line up to a separator. -/
def restOfLine (limit : Nat) (i : Inner) : Reader Pipeline := do
  let found ← pipeline limit i
  skipSpaces
  skipComment
  return found

/-- The pipeline at the cursor, if the text has not ended there. -/
def pipelineHere (closer : Option Char) (limit : Nat) (i : Inner) : Reader (Round Pipeline) := do
  match ← peek? with
  | none => return .stop
  | some c => do
    if closer = some c then return .stop
    else if c = ')' ∨ c = ']' ∨ c = '}' then unexpected
    else do
      let found ← restOfLine limit i
      match ← peek? with
      | none => return .last found
      | some c => do
        if c = '\n' ∨ c = ';' then return .more found
        else if closer = some c then return .last found
        else unexpected

/-- One round of a chunk that ends with `closer`, or with the text. -/
def nextPipeline (closer : Option Char) (limit : Nat) (i : Inner) : Reader (Round Pipeline) := do
  skipSeparators
  pipelineHere closer limit i

theorem restOfLine_bind {α : Type} (next : Pipeline → Reader α) : (restOfLine limit i >>= next) = (do
    let found ← pipeline limit i
    skipSpaces
    skipComment
    next found) := by
  simp only [restOfLine, bind_assoc, pure_bind]

theorem chunk_eq (closer : Option Char) : chunk limit i closer = (do
    let start ← offset
    let pipelines ← repeated limit (nextPipeline closer limit i)
    return ⟨pipelines, ← spanFrom start⟩) := by
  unfold chunk
  refine bind_congr fun start => congrArg (· >>= _) (congrArg (repeated limit) ?_)
  refine bind_congr fun _ => bind_congr fun next => ?_
  cases next with
  | none => rfl
  | some c => exact congrArg (ite _ _) (congrArg (ite _ _) (restOfLine_bind _).symm)

/-! ## Going on after a pipeline -/

/-- What separates pipelines. -/
abbrev isSeparator (c : Char) : Bool := isSpaceOrNewline c || c == ';'

/-- A round starts where the separators end. -/
theorem nextPipeline_skip (closer : Option Char) (c : Cursor) : nextPipeline closer limit i c =
    pipelineHere closer limit i (Cursor.skip isSeparator false c.offset c.rest) := rfl

/-- Where the shorter text ends among the separators, the longer one is skipped further. -/
theorem skip_ended {separator : Char → Bool} (newline : separator '\n' = true) {commented : Bool}
    {o o' : Nat} {cs : List Char} (h : Cursor.skip separator commented o cs = ⟨o', []⟩) :
    Cursor.skip separator commented o (cs ++ '\n' :: more) =
      Cursor.skip separator false o' ('\n' :: more) := by
  induction cs generalizing commented o with
  | nil =>
    cases commented with
    | false =>
      obtain rfl : o = o' := congrArg Cursor.offset h
      rfl
    | true =>
      obtain rfl : o = o' := congrArg Cursor.offset h
      rw [List.nil_append, Cursor.skip, Cursor.skip, if_pos newline]
      rfl
  | cons c cs ih =>
    cases commented with
    | true => exact ih h
    | false =>
      rw [List.cons_append, Cursor.skip]
      rw [Cursor.skip] at h
      by_cases separates : separator c = true
      · rw [if_pos separates] at h ⊢
        exact ih h
      · rw [if_neg separates] at h ⊢
        by_cases hash : c = '#'
        · rw [if_pos hash] at h ⊢
          exact ih h
        · rw [if_neg hash] at h
          cases congrArg Cursor.rest h

theorem goesOn_restOfLine (limit : Nat) (hi : i.Level more) (cs : List Char) :
    GoesOn more False (.code 0) (fun _ => .code 0) (restOfLine limit i) (restOfLine limit i) cs := by
  refine goesOn_bind (goesOn_weaken (goesOn_pipeline hi cs) nofun) fun found rest => ?_
  exact goesOn_skipSpaces fun rest => goesOn_skipComment fun rest => goesOn_pure rfl

/-- How a round ends in the joined text, that ended in the first text with `r` at `c'`. -/
def Joined (closer : Option Char) (limit : Nat) (i : Inner) (more : List Char) (longer : Cursor)
    (c' : Cursor) : Round Pipeline → Prop
  | .stop => c'.rest = [] ∧
      nextPipeline closer limit i longer = nextPipeline closer limit i ⟨c'.offset, '\n' :: more⟩
  | .last found => c'.rest = [] ∧
      nextPipeline closer limit i longer = .ok (.more found, ⟨c'.offset, '\n' :: more⟩)
  | .more found => (Open.code 0).closes c'.rest = true →
      nextPipeline closer limit i longer = .ok (.more found, ⟨c'.offset, c'.rest ++ '\n' :: more⟩)

/-- A character that ends chunks: a closing bracket. -/
def IsCloser (closer : Option Char) : Prop := ∀ c ∈ closer, c = ')' ∨ c = ']' ∨ c = '}'

theorem isCloser_none : IsCloser none := fun _ closes => nomatch closes

theorem nextPipeline_joined {closer : Option Char} (closing : IsCloser closer) (hi : i.Level more)
    {o : Nat} {cs : List Char} {r : Round Pipeline} {c' : Cursor}
    (h : nextPipeline none limit i ⟨o, cs⟩ = .ok (r, c')) :
    (Open.code 0).closes cs = (Open.code 0).closes c'.rest ∧
      Joined closer limit i more ⟨o, cs ++ '\n' :: more⟩ c' r := by
  have skipped := Open.closes_skip (n := 0) (fun _ => plain_separator) false o cs
  change _ = (Open.code 0).closes (Cursor.skip isSeparator false o cs).rest at skipped
  rw [nextPipeline_skip] at h
  rcases hs : Cursor.skip isSeparator false o cs with ⟨o', _ | ⟨c, rest⟩⟩ <;> rw [hs] at skipped h
  · cases h
    refine ⟨skipped, rfl, ?_⟩
    rw [nextPipeline_skip, skip_ended rfl hs]
    rfl
  · -- no separator follows, so the pipeline is the same in the longer text
    have goes : nextPipeline closer limit i ⟨o, cs ++ '\n' :: more⟩ =
        pipelineHere closer limit i ⟨o', c :: rest ++ '\n' :: more⟩ := by
      rw [nextPipeline_skip, skip_goesOn isSeparator false o (by rw [hs]; exact nofun), hs]
    have same (stop x y : Reader (Round Pipeline)) (closer : Option Char) (cs : List Char) :
        ((do
          match ← peek? with
          | none => x
          | some c =>
            if closer = some c then stop
            else if c = ')' ∨ c = ']' ∨ c = '}' then unexpected else y) : Reader _) ⟨o', c :: cs⟩ =
        (if closer = some c then stop
          else if c = ')' ∨ c = ']' ∨ c = '}' then unexpected else y) ⟨o', c :: cs⟩ := rfl
    unfold pipelineHere at h goes
    rw [List.cons_append, same] at goes
    rw [same, if_neg nofun] at h
    split at h
    · exact (unexpected_not_ok h).elim
    · next bracket =>
      have going : closer ≠ some c := fun closes => bracket (closing c closes)
      rw [if_neg going, if_neg bracket] at goes
      obtain ⟨found, c₂, line, h⟩ := run_bind_ok h
      have going := goesOn_restOfLine limit hi (c :: rest)
      have closes := skipped.trans (going.closes line)
      obtain ⟨o₂, _ | ⟨d, rest₂⟩⟩ := c₂
      · cases h
        refine ⟨closes, rfl, goes.trans ?_⟩
        exact (run_bind (going.found line (skipped.symm.trans closes))).trans rfl
      · change (if d = '\n' ∨ d = ';' then _ else _ : Reader (Round Pipeline)) _ = _ at h
        split at h
        · next separates =>
          cases h
          refine ⟨closes, fun closed => goes.trans ?_⟩
          refine (run_bind (going.found line ((going.closes line).trans closed))).trans ?_
          show (if d = '\n' ∨ d = ';' then _ else _ : Reader (Round Pipeline)) _ = _
          rw [if_pos separates]
          rfl
        · rw [if_neg nofun] at h
          exact (unexpected_not_ok h).elim

/-- **The rounds go on**: who has read the first text to its end reads, in the joined text, the first text
and then what comes from its end on.  A closing bracket ends the joined text, but none stands in the first. -/
theorem repeatedOnto_joined {closer : Option Char} (closing : IsCloser closer) (hi : i.Level more)
    {rounds o : Nat} {cs : List Char} {items found : List Pipeline} {c' : Cursor}
    (h : repeatedOnto (nextPipeline none limit i) rounds items ⟨o, cs⟩ = .ok (found, c')) :
    (Open.code 0).closes cs = true ∧ ∀ {rounds' r},
      repeatedOnto (nextPipeline closer limit i) rounds' found.reverse ⟨c'.offset, '\n' :: more⟩ =
        .ok r →
      repeatedOnto (nextPipeline closer limit i) (rounds + rounds') items ⟨o, cs ++ '\n' :: more⟩ =
        .ok r := by
  induction rounds generalizing items o cs with
  | zero => exact nomatch h
  | succ rounds ih =>
    obtain ⟨r, c₁, first, rest⟩ := run_bind_ok h
    obtain ⟨closes, joined⟩ := nextPipeline_joined closing hi first
    cases r with
    | stop =>
      cases rest
      obtain ⟨ended, same⟩ := joined
      rw [ended] at closes
      refine ⟨closes, fun {rounds' r} later => ?_⟩
      rw [List.reverse_reverse] at later
      have enough : rounds' ≤ rounds + 1 + rounds' := Nat.le_add_left _ _
      have later := (extends_repeatedOnto enough (.refl _) _).of_ok later
      rw [Nat.add_right_comm] at later ⊢
      show (nextPipeline closer limit i _).bind _ = _
      rw [same]
      exact later
    | last item =>
      cases rest
      obtain ⟨ended, same⟩ := joined
      rw [ended] at closes
      refine ⟨closes, fun {rounds' r} later => ?_⟩
      rw [List.reverse_reverse] at later
      have enough : rounds' ≤ rounds + rounds' := Nat.le_add_left _ _
      have later := (extends_repeatedOnto enough (.refl _) _).of_ok later
      rw [Nat.add_right_comm]
      exact (run_bind same).trans later
    | more item =>
      obtain ⟨closed, goes⟩ := ih rest
      refine ⟨closes.trans closed, fun {rounds' r} later => ?_⟩
      rw [Nat.add_right_comm]
      exact (run_bind (joined closed)).trans (goes later)

/-! ## Whole texts -/

/-- What a whole text was read as, at any higher limit. -/
theorem chunk_of_readChunk (limit : Nat) {code : String} {found : Chunk}
    (h : readChunk code = .ok found) (hl : code.toList.length + 1 ≤ limit) :
    chunk limit (inner limit limit) none (Cursor.start code.toList) =
      .ok (found, ⟨byteLength code.toList, []⟩) := by
  obtain ⟨-, c', hunit⟩ := readChunk_ok_iff.mp h
  unfold unit at hunit
  obtain ⟨found, c₁, hfound, hunit⟩ := run_bind_ok hunit
  obtain ⟨next, hnext, hunit⟩ := run_peek hunit
  split at hunit
  · exact (unexpected_not_ok hunit).elim
  · next ended =>
    obtain ⟨rfl, rfl⟩ := run_pure_ok hunit
    have start : (Cursor.start code.toList).At code.toList := ⟨[], rfl, rfl⟩
    obtain ⟨text, passes⟩ := (chunk_ok (inner_exact code.toList _ _) start hfound).moves
    obtain ⟨stop, rest⟩ := c₁
    have ended : rest = [] := by
      cases rest with
      | nil => rfl
      | cons c rest => exact absurd (congrArg Option.isSome hnext.symm) ended
    subst ended
    have stops : stop = byteLength code.toList := by
      have whole : code.toList = text := passes.rest.trans (List.append_nil text)
      have offset : stop = 0 + byteLength text := passes.offset
      rw [offset, whole, Nat.zero_add]
    rw [← stops]
    exact (extends_chunk hl (extends_inner hl hl) none).of_ok hfound

/-- The pipelines of a whole text, and where they end. -/
theorem chunk_run {c c' : Cursor} {found : Chunk} (h : chunk limit i none c = .ok (found, c')) :
    repeatedOnto (nextPipeline none limit i) limit [] c = .ok (found.pipelines, c') ∧
      found.span = ⟨c.offset, c'.offset⟩ := by
  rw [chunk_eq] at h
  obtain ⟨pipelines, c₁, rounds, h⟩ := run_bind_ok (run_offset h)
  obtain ⟨rfl, rfl⟩ := spanFrom_pure_ok h
  exact ⟨rounds, rfl⟩

end Grammar

theorem skip_spaces {separator : Char → Bool} (space : separator ' ' = true) (spaces o : Nat)
    (cs : List Char) : Cursor.skip separator false o (List.replicate spaces ' ' ++ cs) =
      Cursor.skip separator false (o + spaces) cs := by
  induction spaces generalizing o with
  | zero => rfl
  | succ spaces ih =>
    have size : ' '.utf8Size = 1 := rfl
    rw [List.replicate_succ, List.cons_append, Cursor.skip, if_pos space, ih, size]
    congr 1
    omega

end ValueShell
