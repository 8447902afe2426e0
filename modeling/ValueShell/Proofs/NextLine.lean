/-
  Code that is followed by more code.

  Each rule of the grammar, on a text and on the same text with more on the next line (`GoesOn`).  The
  rules for what stands inside a bracket are the same at every depth, so the proof goes through the grammar
  once and closes the circle by induction on the nesting, as `Grammar.inner` does.

  Only between pipelines, and after a `|`, may a line end be skipped outside all brackets.  Neither happens in
  what an attempt reads.  So all rules up to a form are firm: a problem remains a problem.  A pipeline is
  firm only inside a bracket; outside, `a |` is a problem that the next line may solve.
-/
import ValueShell.Proofs.GoingOn
import ValueShell.Proofs.ReaderLimits

namespace ValueShell

namespace Reader

open TextReader

variable {more : List Char} {firm : Prop} {n : Nat} {α : Type}

/-- **A reader that goes on**, with `n` brackets open at its start and `m` at its end. -/
abbrev Level (more : List Char) (firm : Prop) (n m : Nat) (x : Reader α) : Prop :=
  ∀ cs, GoesOn more firm (.code n) (fun _ => .code m) x x cs

/-! ## Strings -/

/-- A single-quoted text ends where its quote does. -/
theorem goesOn_singleQuoted (limit : Nat) (rest : List Char) :
    GoesOn more firm (.code n) (fun _ => .code n) (singleQuoted limit) (singleQuoted limit)
      ('\'' :: rest) := by
  refine goesOn_offset fun start => goesOn_advance rfl ?_
  refine goesOn_bind (goesOn_repeated (s := ⟨.single, n⟩) (t := .code n) (fun cs => ?_) limit)
    fun _ _ => goesOn_pure rfl
  refine goesOn_peek (fun c rest hcs => ?_) fun hcs => ?_
  · subst hcs
    split
    · next h => exact nomatch h
    · next h =>
      cases h
      refine goesOn_advance rfl (goesOn_peek_is (c := '\'') (k := fun b => if b then _ else _)
        (l := fun b => if b then _ else _) (by decide) (fun rest hrest => ?_) (goesOn_pure rfl))
      subst hrest
      exact goesOn_advance_pure rfl
    · next d quote h =>
      cases h
      have quote : c ≠ '\'' := quote
      refine goesOn_advance_pure ?_
      simp [Open.after?, afterRound, quote]
  · subst hcs
    exact goesOn_open rfl (goesOn_failFrom _ _)

/-- A digit neither ends nor escapes. -/
theorem digit_ne {base d : Nat} {c : Char} (h : Numeral.digit? base c = some d) :
    c ≠ '"' ∧ c ≠ '\\' := by
  constructor
  · rintro rfl
    have none : Numeral.digit? base '"' = none := rfl
    exact nomatch none.symm.trans h
  · rintro rfl
    have none : Numeral.digit? base '\\' = none := rfl
    exact nomatch none.symm.trans h

/-- The digits of an escape; the first of them may come right after the backslash. -/
theorem goesOn_codePoint (start base digits acc : Nat) (cs : List Char) {s : Open}
    (hs : s = ⟨.double, n⟩ ∨ s = ⟨.escape, n⟩ ∧ 0 < digits) :
    GoesOn more firm s (fun _ => ⟨.double, n⟩) (codePoint start base digits acc)
      (codePoint start base digits acc) cs := by
  induction digits generalizing acc cs s with
  | zero =>
    rcases hs with rfl | ⟨-, h⟩
    · exact goesOn_pure rfl
    · exact nomatch h
  | succ digits ih =>
    refine goesOn_peek (fun c rest hcs => ?_) fun hcs => ?_
    · subst hcs
      rw [Option.bind_some]
      cases hd : Numeral.digit? base c with
      | none => exact goesOn_failFrom _ _
      | some d =>
        obtain ⟨quote, backslash⟩ := digit_ne hd
        refine goesOn_advance (t := ⟨.double, n⟩) ?_ (ih _ _ (.inl rfl))
        rcases hs with rfl | ⟨rfl, -⟩
        · simp [Open.after?, quote, backslash]
        · rfl
    · subst hcs
      have newline : Numeral.digit? base '\n' = none := rfl
      rw [Option.bind_some, newline]
      exact goesOn_failFrom _ _

/-- An escape is inside of its string. -/
theorem goesOn_escape (rest : List Char) :
    GoesOn more firm ⟨.double, n⟩ (fun _ => ⟨.double, n⟩) escape escape ('\\' :: rest) := by
  refine goesOn_offset fun start => goesOn_advance (t := ⟨.escape, n⟩) rfl ?_
  refine goesOn_peek (fun c rest hcs => ?_) fun hcs => ?_
  · subst hcs
    split
    case h_9 => exact goesOn_advance rfl (goesOn_codePoint _ _ _ _ _ (.inl rfl))
    case h_10 =>
      split
      · exact goesOn_codePoint _ _ _ _ _ (.inr ⟨rfl, by decide⟩)
      · exact goesOn_advance rfl (goesOn_failFrom _ _)
    all_goals exact goesOn_advance_pure rfl
  · subst hcs
    have ended : ∀ c, ∃ e, (do advance; failFrom start .invalidEscape : Reader Char) c =
        .error (.problem e) := fun _ => ⟨_, rfl⟩
    exact goesOn_open rfl (goesOn_problem ended ended)

/-- A double-quoted text ends where its quote does. -/
theorem goesOn_doubleQuoted (limit : Nat) (rest : List Char) :
    GoesOn more firm (.code n) (fun _ => .code n) (doubleQuoted limit) (doubleQuoted limit)
      ('"' :: rest) := by
  refine goesOn_offset fun start => goesOn_advance (t := ⟨.double, n⟩) rfl ?_
  refine goesOn_bind (goesOn_repeated (s := ⟨.double, n⟩) (t := .code n) (fun cs => ?_) limit)
    fun _ _ => goesOn_pure rfl
  refine goesOn_peek (fun c rest hcs => ?_) fun hcs => ?_
  · subst hcs
    split
    · next h => exact nomatch h
    · next h =>
      cases h
      exact goesOn_advance_pure rfl
    · next h =>
      cases h
      exact goesOn_bind (goesOn_escape rest) fun _ _ => goesOn_pure rfl
    · next d quote backslash h =>
      cases h
      have quote : c ≠ '"' := quote
      have backslash : c ≠ '\\' := backslash
      refine goesOn_advance_pure ?_
      simp [Open.after?, afterRound, quote, backslash]
  · subst hcs
    exact goesOn_open rfl (goesOn_failFrom _ _)

end Reader

namespace Grammar

open Reader TextReader

variable {more : List Char} {firm : Prop} {n : Nat}

/-! ## Words -/

/-- What is part of a bareword opens and closes nothing. -/
theorem plain_barewordChar {around : Surroundings} {c : Char} (h : isBarewordChar around c = true) :
    Open.Plain c := by
  refine Open.plain_iff.mpr fun special => ?_
  simp only [List.mem_cons, List.not_mem_nil, or_false] at special
  rcases special with rfl | rfl | rfl | rfl | rfl | rfl | rfl | rfl | rfl <;>
    simp [isBarewordChar, barewordSigns, isAlphanumeric_ascii] at h

theorem plain_variableChar {c : Char} (h : isVariableChar c = true) : Open.Plain c := by
  refine Open.plain_iff.mpr fun special => ?_
  simp only [List.mem_cons, List.not_mem_nil, or_false] at special
  rcases special with rfl | rfl | rfl | rfl | rfl | rfl | rfl | rfl | rfl <;>
    simp [isVariableChar, isAlphanumeric_ascii] at h

/-- A variable. -/
theorem goesOn_variableName (rest : List Char) :
    GoesOn more firm (.code n) (fun _ => .code n) variableName variableName ('$' :: rest) := by
  refine goesOn_offset fun start => goesOn_advance (t := .code n) rfl ?_
  have named (marked : Bool) (cs : List Char) : GoesOn more firm (.code n) (fun _ => .code n)
      (do
        let name ← munch isVariableChar
        if name.isEmpty then failFrom start .emptyVariableName
        else return String.ofList (if marked then '@' :: name else name))
      (do
        let name ← munch isVariableChar
        if name.isEmpty then failFrom start .emptyVariableName
        else return String.ofList (if marked then '@' :: name else name)) cs := by
    refine goesOn_munch (fun _ => plain_variableChar) rfl fun name rest => ?_
    split
    · exact goesOn_failFrom _ _
    · exact goesOn_pure rfl
  refine goesOn_peek_is (c := '@') (k := fun marked => do
      if marked then advance
      let name ← munch isVariableChar
      if name.isEmpty then failFrom start .emptyVariableName
      else return String.ofList (if marked then '@' :: name else name))
    (l := fun marked => do
      if marked then advance
      let name ← munch isVariableChar
      if name.isEmpty then failFrom start .emptyVariableName
      else return String.ofList (if marked then '@' :: name else name))
    (by decide) (fun rest hrest => ?_) (named false _)
  subst hrest
  exact goesOn_advance (t := .code n) rfl (named true rest)

/-- A bareword ends at the newline. -/
theorem goesOn_bareword? (around : Surroundings) :
    Level more firm n n (bareword? around) := fun cs =>
  goesOn_offset fun start => goesOn_munch (fun _ => plain_barewordChar)
    (by
      obtain ⟨stopAtEq, inBraced⟩ := around
      cases stopAtEq <;> cases inBraced <;> rfl)
    fun text rest => by
      split
      · exact goesOn_pure rfl
      · exact goesOn_spanFrom fun _ => goesOn_pure rfl

/-! ## Inside a delimiter -/

/-- What may stand inside a delimiter goes on, at every depth. -/
structure Inner.Level (more : List Char) (i : Inner) : Prop where
  chunk : ∀ closer n, Reader.Level more True (n + 1) (n + 1) (i.chunk (some closer))
  compound : ∀ around n, Reader.Level more True n n (i.compound around)

section

variable {limit : Nat} {i : Inner} (hi : i.Level more)

/-- A closing delimiter closes one bracket. -/
theorem goesOn_closeWith {closer : Char} (hc : (Open.code (n + 1)).after? closer = some (.code n))
    (hn : closer ≠ '\n') (what : Construct) (start : Nat) :
    Level more firm (n + 1) n (closeWith closer what start) := fun cs => by
  refine goesOn_peek_is (c := closer) (k := fun b => if b then _ else _)
    (l := fun b => if b then _ else _) hn (fun rest hrest => ?_) (goesOn_failFrom _ _)
  subst hrest
  exact goesOn_advance_pure hc

include hi

/-- The body of a lambda, by the inner readers. -/
theorem goesOn_lambdaBody (rest : List Char) :
    GoesOn more True (.code n) (fun _ => .code n) (lambdaBody i) (lambdaBody i) ('{' :: rest) := by
  refine goesOn_offset fun start => goesOn_advance (t := .code (n + 1)) rfl ?_
  refine goesOn_bind (hi.chunk '}' n _) fun body rest => ?_
  exact goesOn_bind (goesOn_closeWith rfl (by decide) _ _ _) fun _ _ => goesOn_pure rfl

/-- The words inside of a bracket, which is one level further in. -/
theorem goesOn_items {closer : Char} (hc : (Open.code (n + 1)).after? closer = some (.code n))
    (what : Construct) : Level more True (n + 1) n (items limit i closer what) := fun cs => by
  refine goesOn_offset fun start => goesOn_repeated (fun cs => ?_) limit
  refine goesOn_skipBlank (Nat.succ_pos n) fun rest => goesOn_peek (fun c rest hcs => ?_) fun hcs => ?_
  · subst hcs
    dsimp only
    split
    · next same =>
      subst same
      exact goesOn_advance_pure hc
    · refine goesOn_bind (hi.compound _ _ _) fun item rest => ?_
      split
      · exact goesOn_unexpected
      · exact goesOn_pure rfl
  · subst hcs
    exact goesOn_open rfl (goesOn_failFrom _ _)

/-- The pairs of a map. -/
theorem goesOn_mapPairs (start : Nat) : Level more True (n + 1) n (mapPairs limit i start) :=
  fun cs => by
  refine goesOn_repeated (fun cs => ?_) limit
  refine goesOn_skipBlank (Nat.succ_pos n) fun rest => goesOn_peek (fun c rest hcs => ?_) fun hcs => ?_
  · subst hcs
    split
    · next h => exact nomatch h
    · next h =>
      cases h
      exact goesOn_advance_pure rfl
    · next h =>
      cases h
      refine goesOn_offset fun pairStart => goesOn_advance (t := .code (n + 1)) rfl ?_
      refine goesOn_peek_is (c := ']') (k := fun b => if b then _ else _)
        (l := fun b => if b then _ else _) (by decide) (fun rest hrest => ?_) ?_
      · subst hrest
        exact goesOn_advance_pure rfl
      · refine goesOn_bind (hi.compound _ _ _) fun key rest => ?_
        refine goesOn_peek_is (c := '=') (k := fun b => if key.indexings.isEmpty || !b then _ else _)
          (l := fun b => if key.indexings.isEmpty || !b then _ else _) (by decide)
          (fun rest hrest => ?_) ?_
        · subst hrest
          split
          · exact goesOn_failFrom _ _
          · refine goesOn_advance (t := .code (n + 1)) rfl ?_
            refine goesOn_bind (hi.compound _ _ _) fun value rest => ?_
            exact goesOn_spanFrom fun _ => goesOn_pure rfl
        · rw [Bool.not_false, Bool.or_true]
          exact goesOn_failFrom _ _
    · exact goesOn_unexpected
  · subst hcs
    exact goesOn_open rfl (goesOn_failFrom _ _)

omit hi in
/-- Parameters are read off a list that is already there, and the cursor stays. -/
theorem goesOn_params {β : Type} {s : Open} {next : β → Open} {cs : List Char}
    (found : List Compound) {k l : List Param → Reader β}
    (later : ∀ names, GoesOn more firm s next (k names) (l names) cs) :
    GoesOn more firm s next (params found >>= k) (params found >>= l) cs := by
  induction found generalizing k l with
  | nil => exact later []
  | cons item rest ih =>
    unfold params
    split
    · rw [bind_assoc, bind_assoc]
      exact ih fun names => later _
    · exact goesOn_problem (fun _ => ⟨_, rfl⟩) fun _ => ⟨_, rfl⟩

/-- A list or a map. -/
theorem goesOn_bracketed (start : Nat) (rest : List Char) :
    GoesOn more True (.code n) (fun _ => .code n) (bracketed limit i start)
      (bracketed limit i start) ('[' :: rest) := by
  refine goesOn_advance (t := .code (n + 1)) rfl ?_
  refine goesOn_skipBlank (Nat.succ_pos n) fun rest => ?_
  refine goesOn_peek_is (c := '&') (k := fun b => if b then _ else _)
    (l := fun b => if b then _ else _) (by decide) (fun rest _ => ?_) ?_
  · refine goesOn_bind (goesOn_mapPairs hi start _) fun pairs rest => ?_
    exact goesOn_spanFrom fun _ => goesOn_pure rfl
  · refine goesOn_bind (goesOn_items hi rfl .list _) fun found rest => ?_
    refine goesOn_peek_is (c := '{') (k := fun b => if b then _ else _)
      (l := fun b => if b then _ else _) (by decide) (fun rest hrest => ?_) ?_
    · subst hrest
      refine goesOn_params found fun names => ?_
      refine goesOn_bind (goesOn_lambdaBody hi rest) fun body rest => ?_
      exact goesOn_spanFrom fun _ => goesOn_pure rfl
    · exact goesOn_spanFrom fun _ => goesOn_pure rfl

/-- A list in braces. -/
theorem goesOn_bracedItems (rest : List Char) :
    GoesOn more True (.code n) (fun _ => .code n) (bracedItems limit i) (bracedItems limit i)
      ('{' :: rest) := by
  refine goesOn_offset fun start => goesOn_advance (t := .code (n + 1)) rfl ?_
  refine goesOn_repeated (s := .code (n + 1)) (fun cs => ?_) limit
  refine goesOn_skipBlank (Nat.succ_pos n) fun rest => ?_
  refine goesOn_bind (hi.compound _ _ _) fun item rest => ?_
  refine goesOn_skipBlank (Nat.succ_pos n) fun rest => goesOn_peek (fun c rest hcs => ?_) fun hcs => ?_
  · subst hcs
    split
    · next h =>
      cases h
      exact goesOn_advance_pure rfl
    · next h =>
      cases h
      exact goesOn_advance_pure rfl
    · next h => exact nomatch h
    · exact goesOn_unexpected
  · subst hcs
    exact goesOn_open rfl (goesOn_failFrom _ _)

/-- **What a word starts with**, case by case. -/
theorem goesOn_primary? (around : Surroundings) :
    Level more True n n (primary? limit i around) := fun cs => by
  refine goesOn_offset fun start => goesOn_peek (fun c rest hcs => ?_) fun hcs => ?_
  · subst hcs
    split
    · next h => exact nomatch h
    · next h =>
      cases h
      refine goesOn_bind (goesOn_singleQuoted limit rest) fun text rest => ?_
      exact goesOn_spanFrom fun _ => goesOn_pure rfl
    · next h =>
      cases h
      refine goesOn_bind (goesOn_doubleQuoted limit rest) fun text rest => ?_
      exact goesOn_spanFrom fun _ => goesOn_pure rfl
    · next h =>
      cases h
      refine goesOn_bind (goesOn_variableName rest) fun text rest => ?_
      exact goesOn_spanFrom fun _ => goesOn_pure rfl
    · next h =>
      cases h
      refine goesOn_advance (t := .code (n + 1)) rfl ?_
      refine goesOn_bind (hi.chunk ')' n _) fun chunk rest => ?_
      refine goesOn_bind (goesOn_closeWith rfl (by decide) _ _ _) fun _ rest => ?_
      exact goesOn_spanFrom fun _ => goesOn_pure rfl
    · next h =>
      cases h
      exact goesOn_bind (goesOn_bracketed hi start rest) fun _ _ => goesOn_pure rfl
    · next h =>
      cases h
      have either (lambda : Bool) : GoesOn more True (.code n) (fun _ => .code n)
          (if lambda then do
              let body ← lambdaBody i
              return some (Primary.lambda [] body (← spanFrom start))
            else do
              let found ← bracedItems limit i
              return some (Primary.braced found (← spanFrom start)))
          (if lambda then do
              let body ← lambdaBody i
              return some (Primary.lambda [] body (← spanFrom start))
            else do
              let found ← bracedItems limit i
              return some (Primary.braced found (← spanFrom start))) ('{' :: rest) := by
        split
        · refine goesOn_bind (goesOn_lambdaBody hi rest) fun body rest => ?_
          exact goesOn_spanFrom fun _ => goesOn_pure rfl
        · refine goesOn_bind (goesOn_bracedItems hi rest) fun found rest => ?_
          exact goesOn_spanFrom fun _ => goesOn_pure rfl
      refine goesOn_second (fun d => either _) fun ended => ?_
      subst ended
      exact goesOn_open rfl (either false)
    · exact goesOn_bareword? around _
  · subst hcs
    -- at the end of the text there is no bareword either
    exact goesOn_congr (goesOn_bareword? around []) (fun _ => rfl) fun _ => rfl

/-! ## Compounds -/

theorem goesOn_bracket (rest : List Char) :
    GoesOn more True (.code n) (fun _ => .code n) (bracket limit i) (bracket limit i)
      ('[' :: rest) := by
  refine goesOn_offset fun start => goesOn_advance (t := .code (n + 1)) rfl ?_
  refine goesOn_bind (goesOn_items hi rfl .index _) fun found rest => ?_
  exact goesOn_spanFrom fun _ => goesOn_pure rfl

/-- A primary with its indices. -/
theorem goesOn_indexing? (around : Surroundings) :
    Level more True n n (indexing? limit i around) := fun cs => by
  refine goesOn_offset fun start => goesOn_bind (goesOn_primary? hi around cs) fun found rest => ?_
  cases found with
  | none => exact goesOn_pure rfl
  | some head =>
    refine goesOn_bind (goesOn_repeated (s := .code n) (t := .code n) (fun cs => ?_) limit)
      fun _ rest => goesOn_spanFrom fun _ => goesOn_pure rfl
    refine goesOn_peek_is (c := '[') (k := fun b => if b then _ else _)
      (l := fun b => if b then _ else _) (by decide) (fun rest hrest => ?_) (goesOn_pure rfl)
    subst hrest
    exact goesOn_bind (goesOn_bracket hi rest) fun _ _ => goesOn_pure rfl

/-- A word. -/
theorem goesOn_compound (around : Surroundings) :
    Level more True n n (compound limit i around) := fun cs => by
  refine goesOn_offset fun start => ?_
  refine goesOn_bind (goesOn_repeated (s := .code n) (t := .code n) (fun cs => ?_) limit)
    fun _ rest => goesOn_spanFrom fun _ => goesOn_pure rfl
  refine goesOn_bind (goesOn_indexing? hi around cs) fun found rest => ?_
  cases found <;> exact goesOn_pure rfl

/-! ## Forms -/

/-- What follows a target: with a `=` right after it, its value. -/
def assigned (limit : Nat) (i : Inner) (start : Nat) (left : Indexing) (isTarget : Bool) :
    Reader (Option Assignment) := do
  if !isTarget || (← peek?) != some '=' then return none
  else do
    advance
    let right ← compound limit i .plain
    return some ⟨left, [right], ← spanFrom start⟩

/-- What a compact assignment reads where a target can stand. -/
def assignmentFrom (limit : Nat) (i : Inner) (start : Nat) : Reader (Option Assignment) := do
  match ← indexing? limit i .target with
  | none => return none
  | some left =>
    assigned limit i start left <| match left.head with
      | .bareword .. | .braced .. => true
      | _ => false

/-- The right side of an assignment without spaces. -/
theorem goesOn_assigned (start : Nat) (left : Indexing) (isTarget : Bool) (cs : List Char) :
    GoesOn more True (.code n) (fun _ => .code n) (assigned limit i start left isTarget)
      (assigned limit i start left isTarget) cs := by
  refine goesOn_peek_is (c := '=') (k := fun b => if !isTarget || !b then _ else _)
    (l := fun b => if !isTarget || !b then _ else _) (by decide) (fun rest hrest => ?_) ?_
  · subst hrest
    split
    · exact goesOn_pure rfl
    · refine goesOn_advance (t := .code n) rfl ?_
      refine goesOn_bind (goesOn_compound hi _ _) fun right rest => ?_
      exact goesOn_spanFrom fun _ => goesOn_pure rfl
  · rw [Bool.not_false, Bool.or_true]
    exact goesOn_pure rfl

/-- An assignment without spaces, from its target on. -/
theorem goesOn_assignmentFrom (start : Nat) (cs : List Char) :
    GoesOn more True (.code n) (fun _ => .code n) (assignmentFrom limit i start)
      (assignmentFrom limit i start) cs := by
  refine goesOn_bind (goesOn_indexing? hi .target cs) fun found rest => ?_
  cases found with
  | none => exact goesOn_pure rfl
  | some left => exact goesOn_assigned hi start left _ rest

theorem goesOn_compactAssignment? : Level more True n n (compactAssignment? limit i) := fun cs => by
  refine goesOn_offset fun start => goesOn_peek (fun c rest hcs => ?_) fun hcs => ?_
  · subst hcs
    refine goesOn_second (fun d => ?_) fun ended => ?_
    · split
      · exact goesOn_pure rfl
      · exact goesOn_assignmentFrom hi start _
    · subst ended
      by_cases brace : c = '{'
      · -- what starts with this brace depends on the next character, but it has to be closed
        subst brace
        exact goesOn_open rfl (goesOn_assignmentFrom hi start _)
      · have same : startsNoTarget c (some '\n') = startsNoTarget c none := by
          simp [startsNoTarget, brace]
        rw [same]
        split
        · exact goesOn_pure rfl
        · exact goesOn_assignmentFrom hi start _
  · subst hcs
    exact goesOn_congr (@goesOn_assignmentFrom more n limit i hi start []) (fun _ => rfl) fun _ => rfl

/-- The assignments at the start of a form. -/
theorem goesOn_compactAssignments : Level more True n n (compactAssignments limit i) := fun cs => by
  refine goesOn_bind (goesOn_repeated (s := .code n) (t := .code n) (fun cs => ?_) limit)
    fun found rest => ?_
  · refine goesOn_bind (goesOn_attempt (goesOn_compactAssignment? hi cs)) fun found rest => ?_
    cases found with
    | none => exact goesOn_pure rfl
    | some assignment =>
      refine goesOn_skipSpaces fun rest => goesOn_atFormEnd fun ended => ?_
      split <;> exact goesOn_pure rfl
  · split
    · exact goesOn_pure rfl
    · refine goesOn_skipSpaces fun rest => goesOn_atFormEnd fun ended => ?_
      split
      · exact goesOn_pure rfl
      · exact goesOn_offset fun _ => goesOn_failAt _ _ _ _

/-- A command, or an assignment with a lone equals sign. -/
theorem goesOn_commandForm : Level more True n n (commandForm limit i) := fun cs => by
  refine goesOn_offset fun start => goesOn_bind (goesOn_compound hi _ cs) fun head rest => ?_
  split
  · exact goesOn_unexpected
  · refine goesOn_bind (goesOn_repeated (s := .code n) (t := .code n) (fun cs => ?_) limit)
      fun args rest => ?_
    · refine goesOn_skipSpaces fun rest => goesOn_atFormEnd fun ended => ?_
      split
      · exact goesOn_pure rfl
      · refine goesOn_bind (goesOn_compound hi _ _) fun arg rest => ?_
        split
        · exact goesOn_unexpected
        · exact goesOn_pure rfl
    · dsimp only
      cases args with
      | nil => exact goesOn_pure rfl
      | cons second values =>
        dsimp only
        split
        · split
          · exact goesOn_pure rfl
          · exact goesOn_failAt _ _ _ _
        · exact goesOn_pure rfl

/-- A form is firm. -/
theorem goesOn_form : Level more True n n (form limit i) := fun cs => by
  refine goesOn_offset fun start => ?_
  refine goesOn_bind (goesOn_compactAssignments hi cs) fun found rest => ?_
  cases found with
  | nil => exact goesOn_commandForm hi rest
  | cons => exact goesOn_pure rfl

omit hi in
/-- There is no form at the end of the text. -/
theorem form_ended (offset : Nat) (r : Form × Cursor) : form limit i ⟨offset, []⟩ ≠ .ok r := by
  cases limit <;> exact nofun

/-- **A pipeline**: outside of all brackets, the text may end after a `|`, and go on with the next
form on the next line. -/
theorem goesOn_pipeline : Level more (0 < n) n n (pipeline limit i) := fun cs => by
  refine goesOn_offset fun start => goesOn_bind (goesOn_weaken (goesOn_form hi cs) fun _ => trivial) fun first rest => ?_
  refine goesOn_bind (goesOn_repeated (s := .code n) (t := .code n) (fun cs => ?_) limit)
    fun _ rest => goesOn_pure rfl
  refine goesOn_skipSpaces fun rest => goesOn_peek_is (c := '|') (k := fun b => if b then _ else _)
    (l := fun b => if b then _ else _) (by decide) (fun rest hrest => ?_) (goesOn_pure rfl)
  subst hrest
  refine goesOn_advance (t := .code n) rfl (goesOn_skipBlank_outside (fun rest => ?_) fun o r found => ?_)
  · exact goesOn_bind (goesOn_weaken (goesOn_form hi rest) fun _ => trivial) fun _ _ => goesOn_pure rfl
  · obtain ⟨found, c₁, first, -⟩ := run_bind_ok found
    exact form_ended o (found, c₁) first

/-! ## Chunks -/

/-- **A chunk inside a bracket.** -/
theorem goesOn_chunk (closer : Char) : Level more True (n + 1) (n + 1) (chunk limit i (some closer)) :=
  fun cs => by
  have hn : 0 < n + 1 := Nat.succ_pos n
  refine goesOn_offset fun start => ?_
  refine goesOn_bind (goesOn_repeated (s := .code (n + 1)) (t := .code (n + 1)) (fun cs => ?_) limit)
    fun _ rest => goesOn_spanFrom fun _ => goesOn_pure rfl
  refine goesOn_skipSeparators hn fun rest => goesOn_peek (fun c rest hcs => ?_) fun hcs => ?_
  · dsimp only
    split
    · exact goesOn_pure rfl
    · split
      · exact goesOn_unexpected
      · refine goesOn_bind (goesOn_weaken (goesOn_pipeline hi _) fun _ => hn) fun found rest => ?_
        refine goesOn_skipSpaces fun rest => goesOn_skipComment fun rest => ?_
        refine goesOn_peek (fun c rest hcs => ?_) fun hcs => ?_
        · dsimp only
          split
          · exact goesOn_pure rfl
          · split
            · exact goesOn_pure rfl
            · exact goesOn_unexpected
        · subst hcs
          exact goesOn_open rfl (goesOn_pure rfl)
  · subst hcs
    exact goesOn_open rfl (goesOn_pure rfl)

end

/-- **The grammar goes on**, at every nesting depth. -/
theorem inner_level (limit depth : Nat) : (inner limit depth).Level more := by
  induction depth with
  | zero =>
    exact ⟨fun _ _ _ => ⟨nofun, nofun, nofun⟩, fun _ _ _ => ⟨nofun, nofun, nofun⟩⟩
  | succ depth ih => exact ⟨fun closer n => goesOn_chunk ih closer, fun around n => goesOn_compound ih around⟩

end Grammar

end ValueShell
