/-
  Reading comes to an end.

  The rules of the grammar repeat and nest, and an attempt to read an assignment may be undone and the text read
  again.  Here every rule is given a bound on the rounds of each repetition and on the nesting.  A rule ENDS at a
  place if there is one outcome, a result or a problem, to which it comes under every bound above the number of
  characters that are left: so it comes to it without any bound.

  Three facts are put together for offsets of any size.  With one more than that number the bound is not reached, since every round that
  asks for another one gets nearer to the end of the text, and so does every delimiter that opens (`ErrorSpans`); a
  higher bound changes nothing then (`ReaderLimits`); and where in a code the text stands makes no difference
  (`ShiftedText`).  With offsets of 32 bits a rule does the same in code that is short enough (`ReaderOffsets`), so it
  ends there, too.

  In longer code it need not.  A comment is skipped by the distance to the end of its line, and if this is no offset,
  by nothing: the comment is still there then, and is skipped again (`long_comment_stays`).
-/
import ValueShell.Proofs.ErrorSpans
import ValueShell.Proofs.ShiftedText

namespace ValueShell

open TextReader Reader Grammar

variable {α : Type}

/-- **A rule ends at a place**, where it is given a bound on its rounds and on the nesting: whatever the bound
is, if it is above the number of characters left, the rule comes to the same result or to the same problem. -/
def Reader.Ends (rule : Nat → Reader α) (c : Cursor) : Prop :=
  ∃ outcome : Except ParseError (α × Cursor),
    ∀ limit, c.rest.length < limit → rule limit c = outcome.mapError .problem

/-- A rule that does not run into one more than the number of characters does not run into anything above, and
does not anywhere else in a code. -/
theorem ends_of_answers {rule : Nat → Reader α} {f : Nat → α → α}
    (extends_of_le : ∀ {limit limit' : Nat}, limit ≤ limit' → Extends (rule limit) (rule limit'))
    (shifts : ∀ limit k, Shifts k (f k) (rule limit) (rule limit)) {post : α → Cursor → Prop} {c : Cursor}
    (answers : Answers (ParseError.Placed c.rest) (rule (c.rest.length + 1)) (Cursor.start c.rest) post) :
    Ends rule c := by
  have there : (Cursor.start c.rest).shift c.offset = c := congrArg (Cursor.mk · c.rest) (Nat.zero_add _)
  obtain ⟨outcome, run⟩ : ∃ outcome : Except ParseError (α × Cursor),
      rule (c.rest.length + 1) c = outcome.mapError .problem := by
    rcases run : rule (c.rest.length + 1) (Cursor.start c.rest) with stop | ⟨a, c'⟩
    · obtain ⟨error, rfl, -⟩ := answers.fails run
      obtain ⟨moved, failed⟩ := (shifts _ c.offset).fails run
      rw [there] at failed
      exact ⟨.error moved, failed⟩
    · have found := (shifts _ c.offset).found run
      rw [there] at found
      exact ⟨.ok _, found⟩
  refine ⟨outcome, fun limit above => ?_⟩
  rw [← run]
  refine extends_of_le above c ?_
  rw [run]
  cases outcome <;> exact nofun

/-- A rule with bounded offsets ends where it follows one that does. -/
theorem Reader.Ends.of_follows {bound : Nat} {rule rule' : Nat → Reader α}
    (extends_of_le : ∀ {limit limit' : Nat}, limit ≤ limit' → Extends (rule limit) (rule limit')) {c : Cursor}
    (fits : c.total < bound) (follows : ∀ limit, Follows bound c (rule limit) (rule' limit)) (h : Ends rule' c) :
    Ends rule c := by
  obtain ⟨outcome', same⟩ := h
  -- one more than the number of characters is enough for both
  have least := same _ (Nat.lt_succ_self _)
  obtain ⟨outcome, run⟩ : ∃ outcome : Except ParseError (α × Cursor),
      rule (c.rest.length + 1) c = outcome.mapError .problem := by
    rcases (follows (c.rest.length + 1)).agrees fits with agreed | ⟨-, e, -, failed, -⟩
    · exact ⟨outcome', agreed.trans least⟩
    · exact ⟨.error e, failed⟩
  refine ⟨outcome, fun limit above => ?_⟩
  rw [← run]
  refine extends_of_le above c ?_
  rw [run]
  cases outcome <;> exact nofun

/-- What goes on without a bound, with a result or a problem, goes on to an end. -/
theorem Reader.Ends.bind {β : Type} {rule : Nat → Reader β} {next : β → Reader α} {c : Cursor} (h : Ends rule c)
    (settled : ∀ b c', ∃ outcome : Except ParseError (α × Cursor), next b c' = outcome.mapError .problem) :
    Ends (fun limit => rule limit >>= next) c := by
  obtain ⟨error | ⟨b, c'⟩, same⟩ := h
  · refine ⟨.error error, fun limit above => ?_⟩
    change (rule limit c).bind _ = _
    rw [same limit above]
    rfl
  · obtain ⟨outcome, settled⟩ := settled b c'
    exact ⟨outcome, fun limit above => (run_bind (same limit above)).trans settled⟩

namespace Grammar

/-- **Every rule ends** at a place: what is made of pipelines, forms and words, the assignments that are only
attempted, and what is inside delimiters. -/
structure Ends (offsets : Offsets) (c : Cursor) : Prop where
  chunk : ∀ closer, Reader.Ends (fun limit => Grammar.chunk limit (inner limit limit) closer) c
  pipeline : Reader.Ends (fun limit => Grammar.pipeline limit (inner limit limit)) c
  form : Reader.Ends (fun limit => Grammar.form limit (inner limit limit)) c
  assignments : Reader.Ends (fun limit => compactAssignments limit (inner limit limit)) c
  attempt : Reader.Ends (fun limit => compactAssignment? limit (inner limit limit)) c
  command : Reader.Ends (fun limit => commandForm limit (inner limit limit)) c
  compound : ∀ around, Reader.Ends (fun limit => Grammar.compound limit (inner limit limit) around) c
  indexing : ∀ around, Reader.Ends (fun limit => indexing? limit (inner limit limit) around) c
  primary : ∀ around, Reader.Ends (fun limit => primary? limit (inner limit limit) around) c

/-- The rules end wherever they are applied. -/
theorem ends (c : Cursor) : Ends .unbounded c := by
  have here : (Cursor.start c.rest).At c.rest := ⟨[], rfl, rfl⟩
  have level : (innermost c.rest).Answers c.rest (c.rest.length + 1) := inner_answers (Nat.le_refl _)
  have room : (Cursor.start c.rest).rest.length ≤ c.rest.length + 1 := Nat.le_succ _
  have within {limit limit' : Nat} (hl : limit ≤ limit') : (inner limit limit).Extends (inner limit' limit') :=
    extends_inner hl hl
  have moved (limit k : Nat) : (inner limit limit).Shifts k := inner_shifts limit limit k
  exact
    { chunk closer := ends_of_answers (fun hl => extends_chunk hl (within hl) closer)
        (fun limit k => shifts_chunk (moved limit k) closer) (answers_chunk level closer here room)
      pipeline := ends_of_answers (fun hl => extends_pipeline hl (within hl))
        (fun limit k => shifts_pipeline (moved limit k)) (answers_pipeline level here room)
      form := ends_of_answers (fun hl => extends_form hl (within hl))
        (fun limit k => shifts_form (moved limit k)) (answers_form level here room)
      assignments := ends_of_answers (fun hl => extends_compactAssignments hl (within hl))
        (fun limit k => shifts_compactAssignments (moved limit k)) (answers_compactAssignments level here room)
      attempt := ends_of_answers (fun hl => extends_compactAssignment? hl (within hl))
        (fun limit k => shifts_compactAssignment? (moved limit k)) (answers_compactAssignment? level here room)
      command := ends_of_answers (fun hl => extends_commandForm hl (within hl))
        (fun limit k => shifts_commandForm (moved limit k)) (answers_commandForm level here room)
      compound around := ends_of_answers (fun hl => extends_compound hl (within hl) around)
        (fun limit k => shifts_compound (moved limit k) around) (answers_compound level here room)
      indexing around := ends_of_answers (fun hl => extends_indexing? hl (within hl) around)
        (fun limit k => shifts_indexing? (moved limit k) around) (answers_indexing? level here room)
      primary around := ends_of_answers (fun hl => extends_primary? hl (within hl) around)
        (fun limit k => shifts_primary? (moved limit k) around) (answers_primary? level here room) }

/-- With offsets of 32 bits they end in code that has fewer than 2^32 bytes. -/
theorem ends_word {c : Cursor} (fits : c.offset + byteLength c.rest < UInt32.size) : Ends .word c := by
  have ideal := ends c
  have here : c.offset < UInt32.size := Nat.lt_of_le_of_lt c.offset_le_total fits
  have within {limit limit' : Nat} (hl : limit ≤ limit') :
      (@inner .word limit limit).Extends (@inner .word limit' limit') := @extends_inner .word _ _ hl _ _ hl
  have inside (limit : Nat) := follows_inner UInt32.size limit limit
  exact
    { chunk closer := (ideal.chunk closer).of_follows (fun hl => @extends_chunk .word _ _ hl _ _ (within hl) closer) fits
        fun limit => follows_chunk (inside limit) closer here
      pipeline := ideal.pipeline.of_follows (fun hl => @extends_pipeline .word _ _ hl _ _ (within hl)) fits
        fun limit => follows_pipeline (inside limit) here
      form := ideal.form.of_follows (fun hl => @extends_form .word _ _ hl _ _ (within hl)) fits
        fun limit => follows_form (inside limit) here
      assignments := ideal.assignments.of_follows
        (fun hl => @extends_compactAssignments .word _ _ hl _ _ (within hl)) fits
        fun limit => follows_compactAssignments (inside limit) here
      attempt := ideal.attempt.of_follows (fun hl => @extends_compactAssignment? .word _ _ hl _ _ (within hl)) fits
        fun limit => follows_compactAssignment? (inside limit) here
      command := ideal.command.of_follows (fun hl => @extends_commandForm .word _ _ hl _ _ (within hl)) fits
        fun limit => follows_commandForm (inside limit) here
      compound around := (ideal.compound around).of_follows
        (fun hl => @extends_compound .word _ _ hl _ _ (within hl) around) fits
        fun limit => follows_compound (inside limit) around here
      indexing around := (ideal.indexing around).of_follows
        (fun hl => @extends_indexing? .word _ _ hl _ _ (within hl) around) fits
        fun limit => follows_indexing? (inside limit) around here
      primary around := (ideal.primary around).of_follows
        (fun hl => @extends_primary? .word _ _ hl _ _ (within hl) around) fits
        fun limit => follows_primary? (inside limit) around here }

/-- A whole text is a chunk with nothing after it. -/
theorem unit_ends (code : List Char) : Reader.Ends unit (Cursor.start code) := by
  refine ((ends (Cursor.start code)).chunk none).bind fun found c => ?_
  obtain ⟨offset, _ | ⟨ch, rest⟩⟩ := c
  · exact ⟨.ok (found, ⟨offset, []⟩), rfl⟩
  · exact ⟨.error ⟨.unexpected ch, ⟨offset, offset + ch.utf8Size⟩⟩, rfl⟩

/-- So it is with offsets of 32 bits. -/
theorem unit_ends_word {code : List Char} (short : byteLength code < UInt32.size) :
    Reader.Ends (@unit .word) (Cursor.start code) :=
  (unit_ends code).of_follows (fun hl => @extends_unit .word _ _ hl)
    (show 0 + byteLength code < UInt32.size by rwa [Nat.zero_add])
    fun _ => follows_unit (show 0 < UInt32.size by decide)

end Grammar

/-- **Reading ends on every text of fewer than 2^32 bytes**, with a tree or with a problem, and so does every rule of
the grammar at every place of such a text: no bound on rounds or nesting is run into, and none above the number of
characters makes a difference. -/
theorem readChunk_ends {code : String} (short : byteLength code.toList < UInt32.size) :
    ((∃ chunk, readChunk code = .ok chunk) ∨ ∃ error, readChunk code = .error (.problem error)) ∧
    (∀ more, (@Grammar.unit .word (code.toList.length + 1 + more) (Cursor.start code.toList)).map Prod.fst =
      readChunk code) ∧
    ∀ c : Cursor, c.offset + byteLength c.rest < UInt32.size → Grammar.Ends .word c := by
  obtain ⟨outcome, same⟩ := Grammar.unit_ends_word short
  have read (more : Nat) : @Grammar.unit .word (code.toList.length + 1 + more) (Cursor.start code.toList) =
      outcome.mapError .problem := same _ (by
    show code.toList.length < _
    omega)
  have least : readChunk code = (outcome.mapError .problem).map Prod.fst :=
    congrArg (Except.map Prod.fst) (read 0)
  refine ⟨?_, fun more => ?_, fun _ => Grammar.ends_word⟩
  · rw [least]
    rcases outcome with error | ⟨chunk, c⟩
    · exact .inr ⟨error, rfl⟩
    · exact .inl ⟨chunk, rfl⟩
  · rw [read, least]

/-- It ends on an attempt that is undone, after a comment. -/
theorem readChunk_ends_undone : (∃ chunk, readChunk "# é\nx=['a']{ put 1 }" = .ok chunk) ∨
    ∃ error, readChunk "# é\nx=['a']{ put 1 }" = .error (.problem error) :=
  (readChunk_ends (by decide +kernel)).1

/-! ## A comment that is too long -/

/-- What begins with something that is exhausted. -/
theorem bind_exhausted {β : Type} {x : Reader α} {k : α → Reader β} {c : Cursor} (h : x c = .error .exhausted) :
    (x >>= k) c = .error .exhausted := by
  show (x c).bind _ = _
  rw [h]
  rfl

section LongComment

/-- A text that is one comment, and the end of its line. -/
@[reducible] def atComment (letters : List Char) : Cursor := ⟨0, '#' :: (letters ++ ['\n'])⟩

variable {bound : Nat} {letters : List Char} (inside : ∀ c ∈ letters, (c != '\n') = true)
  (far : bound ≤ byteLength letters)
include inside far

/-- A comment whose end is too far away is still there after it is skipped. -/
theorem skipComment_stays : @skipComment (.below bound) (atComment letters) = .ok ((), atComment letters) := by
  have line : Cursor.dropWhile (· != '\n') (atComment letters) = ⟨0 + byteLength ('#' :: letters), ['\n']⟩ := by
    have inside : ∀ c ∈ '#' :: letters, (c != '\n') = true := List.forall_mem_cons.mpr ⟨rfl, inside⟩
    rw [atComment, ← List.cons_append, Cursor.dropWhile, List.takeWhile_append_of_pos inside,
      List.dropWhile_append_of_pos inside]
    exact congrArg (fun text => Cursor.mk (0 + byteLength text) ['\n']) (List.append_nil _)
  have long : bound ≤ 0 + byteLength ('#' :: letters) := by
    rw [byteLength]
    omega
  show (if !(Cursor.dropWhile (· != '\n') (atComment letters)).rest.isEmpty &&
      bound ≤ (Cursor.dropWhile (· != '\n') (atComment letters)).offset - 0 then pure ()
    else reach bound (Cursor.dropWhile (· != '\n') (atComment letters)) : Reader Unit) _ = _
  rw [line, if_pos (by simpa using long)]
  rfl

variable {separator : Char → Bool} (hash : separator '#' = false) (some : 0 < bound)
include hash some

/-- **However often it is skipped**, the comment is not passed. -/
theorem skipRounds_exhausted (rounds : Nat) :
    @skipRounds (.below bound) separator rounds (atComment letters) = .error .exhausted := by
  induction rounds with
  | zero => rfl
  | succ rounds ih =>
    have passed : @pass ParseError (.below bound) (Cursor.dropWhile separator) (atComment letters) =
        .ok ((), atComment letters) := by
      show (reach bound (Cursor.dropWhile separator _) : Reader Unit) _ = _
      rw [Cursor.dropWhile_of_neg hash, reach, if_pos some]
      rfl
    refine (run_bind passed).trans ?_
    show (@skipComment (.below bound) >>= fun _ => @skipRounds (.below bound) separator rounds) _ = _
    rw [run_bind (skipComment_stays inside far), ih]

omit hash

/-- So nothing is read at all. -/
theorem unit_exhausted (limit : Nat) :
    @Grammar.unit (.below bound) limit (atComment letters) = .error .exhausted := by
  have round : @skipSeparators (.below bound) (atComment letters) = .error .exhausted :=
    skipRounds_exhausted inside far rfl some _
  have begun {k : Nat → Reader Chunk} {c : Cursor} (h : k c.offset c = .error .exhausted) :
      (offset >>= k) c = .error .exhausted := h
  refine bind_exhausted (begun (bind_exhausted ?_))
  cases limit with
  | zero => rfl
  | succ limit => exact bind_exhausted (bind_exhausted round)

end LongComment

/-- **A comment of 2^32 letters, and the end of its line.**  Skipping it leaves it where it is, and so the rounds in
which separators and comments are skipped do not end, whatever their number is: the code is not read. -/
theorem long_comment_stays :
    let code := String.ofList ('#' :: (List.replicate UInt32.size 'a' ++ ['\n']))
    @skipComment .word (Cursor.start code.toList) = .ok ((), Cursor.start code.toList) ∧
      (∀ rounds, @skipRounds .word (fun c => isSpaceOrNewline c || c == ';') rounds (Cursor.start code.toList) =
        .error .exhausted) ∧
      ∀ limit, @Grammar.unit .word limit (Cursor.start code.toList) = .error .exhausted := by
  intro code
  have start : Cursor.start code.toList = ⟨0, '#' :: (List.replicate UInt32.size 'a' ++ ['\n'])⟩ :=
    congrArg _ String.toList_ofList
  have inside : ∀ c ∈ List.replicate UInt32.size 'a', (c != '\n') = true := fun c mem => by
    rw [List.eq_of_mem_replicate mem]
    rfl
  have far : UInt32.size ≤ byteLength (List.replicate UInt32.size 'a') :=
    Nat.le_of_eq (byteLength_replicate rfl _).symm
  rw [start]
  exact ⟨skipComment_stays inside far, skipRounds_exhausted inside far rfl (by decide),
    unit_exhausted inside far (by decide)⟩

end ValueShell
