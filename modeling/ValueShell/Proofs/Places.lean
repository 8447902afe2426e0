/-
  The places where a primary may stand.

  A place is told by the texts before and after it (`AroundPlace`): an argument of a command, the right side of
  an assignment, an index, also that of the target of an assignment, and all places inside brackets and braces
  there.  A text that is read as the same primary everywhere is read as that primary in every such
  place (`readChunk_place`).

  With this, reading is compositional (`readChunk_compositional`): one text after another on the next line, and
  a text between the delimiters of a capture or of a lambda, are read as they are alone.
-/
import ValueShell.Proofs.Fillings

namespace ValueShell

open TextReader Reader

/-! ## Places in a code -/

/-- **The texts before and after a place** in a code. -/
inductive AroundPlace : List Char → List Char → Prop
  /-- `f a HERE b` -/
  | argument {head before after : List Char} {left right : List (List Char)} (filler : Filler head)
      (fillers : ∀ t ∈ left ++ right, Filler t) (h : Within before after) :
      AroundPlace (head ++ ' ' :: (withAfter ' ' left ++ before)) (after ++ withBefore ' ' right)
  /-- `x=HERE` -/
  | assigned {target before after : List Char} (word : Word target) (h : Within before after) :
      AroundPlace (target ++ '=' :: before) after
  /-- `x[a HERE b]=v` -/
  | target {target before after value : List Char} {left right : List (List Char)}
      (word : Word target) (fillers : ∀ t ∈ left ++ right, Filler t) (filler : Filler value)
      (h : Within before after) :
      AroundPlace (target ++ '[' :: (withAfter ' ' left ++ before))
        (after ++ (withBefore ' ' right ++ ']' :: '=' :: value))
  /-- `x[a HERE b] = v` -/
  | spacedTarget {target before after value : List Char} {left right : List (List Char)}
      (word : Word target) (fillers : ∀ t ∈ left ++ right, Filler t) (filler : Filler value)
      (h : Within before after) :
      AroundPlace (target ++ '[' :: (withAfter ' ' left ++ before))
        (after ++ (withBefore ' ' right ++ ']' :: ' ' :: '=' :: ' ' :: value))

namespace Grammar

open Standing

variable {limit depth total n : Nat} {i : Inner} {text rest tail cs mid : List Char}
  {left right : List (List Char)} {P : Nat → List Char → Compound → Prop} {found : Nat → Primary}

/-! ### Commands -/

/-- One round of the arguments of a command. -/
def nextArg (limit : Nat) (i : Inner) : Reader (Round Compound) := do
  skipSpaces
  if ← atFormEnd then return .stop
  else do
    let arg ← compound limit i .plain
    if arg.indexings.isEmpty then unexpected else return .more arg

/-- A blank before an argument is skipped. -/
theorem nextArg_space (o : Nat) (cs : List Char) :
    nextArg limit i ⟨o, ' ' :: cs⟩ = nextArg limit i ⟨o + 1, cs⟩ := by
  have past : Cursor.dropWhile isSpace ⟨o, ' ' :: cs⟩ = Cursor.dropWhile isSpace ⟨o + 1, cs⟩ := by
    have size : ' '.utf8Size = 1 := by decide
    simp [Cursor.dropWhile, isSpace, byteLength, size, Nat.add_assoc]
  have run (c : Cursor) : nextArg limit i c = (do
      if ← atFormEnd then return .stop
      else do
        let arg ← compound limit i .plain
        if arg.indexings.isEmpty then unexpected else return .more arg : Reader (Round Compound))
          (Cursor.dropWhile isSpace c) := rfl
  rw [run, run, past]

/-- A form does not end at the start of an argument. -/
def StartsArg (c : Char) : Prop :=
  isSpace c = false ∧
    (c == '\n' || c == ';' || c == '|' || c == ')' || c == '}' || c == '#') = false

/-- What opens a filler may start an argument. -/
theorem startsArg_of_opens {c : Char} (h : Opens c) : StartsArg c := by
  refine ⟨(Bool.or_eq_false_iff.mp h.not_blank).1, ?_⟩
  simp only [beq_false_of_ne (h.ne (d := '\n') (by decide)), beq_false_of_ne (h.ne (d := ';') (by decide)),
    beq_false_of_ne (h.ne (d := '|') (by decide)), beq_false_of_ne (h.ne (d := ')') (by decide)),
    beq_false_of_ne (h.ne (d := '}') (by decide)), beq_false_of_ne (h.ne (d := '#') (by decide)), Bool.or_false]

/-- A round reads an argument, if a word is read there. -/
theorem leadsIn_nextArg {c : Char} (text : List Char) {R : Compound → Prop} (starts : StartsArg c)
    (reads : LeadsIn total (compound limit i .plain) (c :: text ++ tail) tail
      fun a => (∃ i, a.indexings = [i]) ∧ R a) :
    LeadsIn total (nextArg limit i) (c :: text ++ tail) tail fun r => ∃ a, r = .more a ∧ R a := by
  refine leadsIn_skipSpaces (by rintro _ ⟨⟩; exact starts.1) ?_
  have goesOn : LeadsIn total atFormEnd (c :: text ++ tail) (c :: text ++ tail) (· = false) :=
    leadsIn_peek (leadsIn_pure starts.2)
  refine leadsIn_known goesOn (leadsIn_bind reads fun a ha => ?_)
  obtain ⟨⟨i, single⟩, hr⟩ := ha
  rw [if_neg (by rw [single]; exact nofun)]
  exact leadsIn_pure ⟨a, rfl, hr⟩

/-- So it does where the text stands for itself. -/
theorem leadsIn_nextArg_standing (standing : Standing text P) (fits : Fits limit depth text)
    (ends : Surroundings.plain.Separates tail) :
    LeadsIn total (nextArg limit (inner limit depth)) (text ++ tail) tail
      fun r => ∃ a, r = .more a ∧ a.Ordinary ∧ P total tail a := by
  have reads := standing.leads fits ends total
  obtain ⟨c, body, rfl, opens⟩ := standing.opens
  exact leadsIn_nextArg body (startsArg_of_opens opens) (reads.mono fun a ⟨ordinary, hp⟩ =>
    ⟨ordinary.single, ordinary, hp⟩)

/-- Where the code ends, a form ends. -/
theorem leadsIn_nextArg_end : LeadsIn total (nextArg limit i) [] [] (· = .stop) :=
  leadsIn_skipSpaces_end (leadsIn_known (b := true) (leadsIn_peek (leadsIn_pure rfl)) (leadsIn_pure rfl))

/-- An indexing that no `=` follows starts no assignment. -/
theorem leadsIn_compactAssignments_none (nonempty : cs ≠ []) (next : mid.head? ≠ some '=')
    (enough : 0 < limit) (reads : LeadsIn total (indexing? limit i .target) cs mid fun f => ∃ j, f = some j) :
    LeadsIn total (compactAssignments limit i) cs cs (· = []) := by
  have nothing : ∃ cs', LeadsIn total (compactAssignment? limit i) cs cs' (· = none) := by
    cases cs with
    | nil => exact absurd rfl nonempty
    | cons c body =>
      by_cases starts : startsNoTarget c body.head? = true
      · refine ⟨c :: body, leadsIn_offset fun start => leadsIn_peek (leadsIn_second ?_)⟩
        dsimp only [List.head?_cons, List.tail_cons]
        rw [if_pos starts]
        exact leadsIn_pure rfl
      · refine ⟨mid, leadsIn_offset fun start => leadsIn_peek (leadsIn_second ?_)⟩
        dsimp only [List.head?_cons, List.tail_cons]
        rw [if_neg starts]
        refine leadsIn_bind reads fun f hf => ?_
        obtain ⟨j, rfl⟩ := hf
        refine leadsIn_peek ?_
        rw [if_pos (by rw [Bool.or_eq_true, bne_iff_ne]; exact .inr next)]
        exact leadsIn_pure rfl
  obtain ⟨_, nothing⟩ := nothing
  refine leadsIn_bind (leadsIn_repeated (n := 0) (R := (· = [])) (collects_stop
    (leadsIn_known (leadsIn_attempt_none nothing) (leadsIn_pure rfl)) rfl) enough) fun found hfound => ?_
  rw [hfound]
  exact leadsIn_pure rfl

/-- **A command, or an assignment to its head.** -/
def Form.IsMadeOf (left : Indexing) (head : Compound) (args : List Compound) (f : Form) : Prop :=
  ∃ span, f = .command head args span ∨
    ∃ second values, args = second :: values ∧ second.bareword? = some "=" ∧
      f = .assign [⟨left, values, span⟩] span

/-- **A command is its head and its arguments.** -/
theorem leadsIn_commandForm {H : Indexing → Prop} {R : List Compound → Prop} (enough : n < limit)
    (head : LeadsIn total (compound limit i .plain) cs mid fun c => ∃ i span, c = ⟨[i], span⟩ ∧ H i)
    (args : Collects total (nextArg limit i) n mid tail R) :
    LeadsIn total (commandForm limit i) cs tail fun f =>
      ∃ left span args, H left ∧ R args ∧ Form.IsMadeOf left ⟨[left], span⟩ args f := by
  refine leadsIn_offset fun start => leadsIn_bind head fun c hc => ?_
  obtain ⟨left, span, rfl, hl⟩ := hc
  refine leadsIn_bind (leadsIn_repeated args enough) fun found hr => ?_
  cases found with
  | nil => exact leadsIn_pure ⟨left, span, [], hl, hr, _, .inl rfl⟩
  | cons second values =>
    by_cases sign : second.bareword? = some "="
    · dsimp only
      rw [if_pos sign]
      exact leadsIn_pure ⟨left, span, _, hl, hr, _, .inr ⟨second, values, rfl, sign, rfl⟩⟩
    · dsimp only
      rw [if_neg sign]
      exact leadsIn_pure ⟨left, span, _, hl, hr, _, .inl rfl⟩

/-- A form is a command if no equals sign comes after its first word. -/
theorem leadsIn_form_command {H : Indexing → Prop} {R : List Compound → Prop} (nonempty : cs ≠ [])
    (next : mid.head? ≠ some '=') (enough : n < limit)
    (reads : LeadsIn total (indexing? limit i .target) cs mid fun f => ∃ j, f = some j)
    (head : LeadsIn total (compound limit i .plain) cs mid fun c => ∃ i span, c = ⟨[i], span⟩ ∧ H i)
    (args : Collects total (nextArg limit i) n mid tail R) :
    LeadsIn total (form limit i) cs tail fun f =>
      ∃ left span args, H left ∧ R args ∧ Form.IsMadeOf left ⟨[left], span⟩ args f :=
  leadsIn_offset fun _ => leadsIn_known
    (leadsIn_compactAssignments_none nonempty next (Nat.lt_of_le_of_lt (Nat.zero_le n) enough) reads)
    (leadsIn_commandForm enough head args)

/-! ### Compact assignments -/

/-- And it is an assignment if one does. -/
theorem leadsIn_form_assignment {L : Indexing → Prop} {V : Compound → Prop}
    (starts : ∃ c body, cs = c :: body ∧ isAlphanumeric c = true) (enough : 0 < limit)
    (target : LeadsIn total (indexing? limit i .target) cs ('=' :: mid) fun f =>
      ∃ text span brackets span', f = some ⟨.bareword text span, brackets, span'⟩ ∧
        L ⟨.bareword text span, brackets, span'⟩)
    (value : LeadsIn total (compound limit i .plain) mid [] V) :
    LeadsIn total (form limit i) cs [] fun f =>
      ∃ left right span span', f = .assign [⟨left, [right], span⟩] span' ∧ L left ∧ V right := by
  obtain ⟨c, body, rfl, letter⟩ := starts
  have starts : startsNoTarget c body.head? = false := by
    have ne {d : Char} (hd : isAlphanumeric d = false) : c ≠ d := by
      rintro rfl
      rw [letter] at hd
      cases hd
    rw [startsNoTarget, beq_false_of_ne (ne (by decide)), beq_false_of_ne (ne (by decide)),
      beq_false_of_ne (ne (by decide)), beq_false_of_ne (ne (by decide)), beq_false_of_ne (ne (by decide)),
      beq_false_of_ne (ne (by decide))]
    rfl
  have one : LeadsIn total (compactAssignment? limit i) (c :: body) [] fun r =>
      ∃ a, r = some a ∧ ∃ left right span, a = ⟨left, [right], span⟩ ∧ L left ∧ V right := by
    refine leadsIn_offset fun start => leadsIn_peek (leadsIn_second ?_)
    dsimp only [List.head?_cons, List.tail_cons]
    rw [if_neg (by rw [starts]; exact Bool.false_ne_true)]
    refine leadsIn_bind target fun f hf => ?_
    obtain ⟨text, span, brackets, span', rfl, hl⟩ := hf
    refine leadsIn_peek (leadsIn_advance (leadsIn_bind value fun right hv => ?_))
    exact leadsIn_span fun whole => leadsIn_pure ⟨_, rfl, _, right, whole, rfl, hl, hv⟩
  have ended : LeadsIn total atFormEnd [] [] (· = true) := leadsIn_peek (leadsIn_pure rfl)
  have all : LeadsIn total (compactAssignments limit i) (c :: body) [] fun found =>
      ∃ left right span, found = [⟨left, [right], span⟩] ∧ L left ∧ V right := by
    refine leadsIn_bind (show LeadsIn total _ (c :: body) [] _ from leadsIn_repeated (n := 0)
      (R := fun found => ∃ left right span, found = [⟨left, [right], span⟩] ∧ L left ∧ V right)
      (collects_last (leadsIn_bind (leadsIn_attempt_some one) fun r hr => ?_)) enough)
        fun found hfound => ?_
    · obtain ⟨a, rfl, left, right, span, rfl, hl, hv⟩ := hr
      exact leadsIn_skipSpaces_end (leadsIn_known ended
        (leadsIn_pure ⟨_, rfl, left, right, span, rfl, hl, hv⟩))
    · obtain ⟨left, right, span, rfl, hl, hv⟩ := hfound
      exact leadsIn_skipSpaces_end (leadsIn_known ended
        (leadsIn_pure ⟨left, right, span, rfl, hl, hv⟩))
  refine leadsIn_offset fun start => leadsIn_bind all fun found hfound => ?_
  obtain ⟨left, right, span, rfl, hl, hv⟩ := hfound
  exact leadsIn_pure ⟨left, right, span, _, rfl, hl, hv⟩

/-! ### Whole codes -/

/-- One round of the forms after the first. -/
def nextForm (limit : Nat) (i : Inner) : Reader (Round Form) := do
  skipSpaces
  if (← peek?) == some '|' then do
    advance
    skipBlank
    return .more (← form limit i)
  else return .stop

/-- A pipeline of one form. -/
theorem leadsIn_pipeline {H : Form → Prop} (enough : 0 < limit)
    (reads : LeadsIn total (form limit i) cs [] H) :
    LeadsIn total (pipeline limit i) cs [] fun p => ∃ form span, p = ⟨[form], span⟩ ∧ H form := by
  have none : LeadsIn total (repeated limit (nextForm limit i)) [] [] (· = []) :=
    leadsIn_repeated (n := 0) (collects_stop (leadsIn_skipSpaces_end (leadsIn_pure rfl)) rfl) enough
  exact leadsIn_offset fun start => leadsIn_bind reads fun form hform =>
    leadsIn_known none (leadsIn_pure ⟨form, _, rfl, hform⟩)

/-- A form on its own is a code. -/
theorem leadsIn_chunk {c : Char} {body : List Char} {H : Form → Prop} (opens : Opens c) (enough : 0 < limit)
    (reads : LeadsIn total (form limit i) (c :: body) [] H) :
    LeadsIn total (chunk limit i none) (c :: body) [] fun chunk =>
      ∃ form span span', chunk = ⟨[⟨[form], span⟩], span'⟩ ∧ H form := by
  have line : LeadsIn total (restOfLine limit i) (c :: body) [] fun p =>
      ∃ form span, p = ⟨[form], span⟩ ∧ H form :=
    leadsIn_bind (leadsIn_pipeline enough reads) fun p hp =>
      leadsIn_skipSpaces_end (leadsIn_known (b := ⟨⟩) (leadsIn_peek (leadsIn_pure rfl)) (leadsIn_pure hp))
  have visible : isSeparator c = false := by
    rw [isSeparator, opens.not_blank, beq_false_of_ne (opens.ne (by decide))]
    rfl
  have stays (o : Nat) : Cursor.skip isSeparator false o (c :: body) = ⟨o, c :: body⟩ := by
    rw [Cursor.skip, visible, if_neg Bool.false_ne_true, if_neg (opens.ne (by decide))]
  have round : LeadsIn total (nextPipeline none limit i) (c :: body) [] fun r =>
      ∃ p, r = .last p ∧ ∃ form span, p = ⟨[form], span⟩ ∧ H form := by
    have here : LeadsIn total (pipelineHere none limit i) (c :: body) [] fun r =>
        ∃ p, r = .last p ∧ ∃ form span, p = ⟨[form], span⟩ ∧ H form := by
      refine leadsIn_peek ?_
      dsimp only [List.head?_cons]
      rw [if_neg (Option.some_ne_none c).symm, if_neg (by
        rintro (rfl | rfl | rfl) <;> rcases opens with h | h | h | h <;> exact absurd h (by decide))]
      exact leadsIn_bind line fun p hp => leadsIn_peek (leadsIn_pure ⟨p, rfl, hp⟩)
    intro o ho
    rw [nextPipeline_skip, stays]
    exact here o ho
  rw [chunk_eq]
  refine leadsIn_offset fun start => leadsIn_bind (leadsIn_repeated (n := 0) (R := fun ps =>
    ∃ form span, ps = [⟨[form], span⟩] ∧ H form) (collects_last (round.mono fun _ hr => ?_)) enough)
      fun found hfound => ?_
  · obtain ⟨p, rfl, form, span, rfl, hform⟩ := hr
    exact ⟨_, rfl, form, span, rfl, hform⟩
  · obtain ⟨form, span, rfl, hform⟩ := hfound
    exact leadsIn_span fun span' => leadsIn_pure ⟨form, span, span', rfl, hform⟩

end Grammar

namespace Standing

open Grammar

variable {found : Nat → Primary} {limit depth total : Nat} {text rest : List Char}
  {left right : List (List Char)} {before after head target value : List Char}

/-- The end of the code ends everything. -/
theorem separates_end (around : Surroundings) : around.Separates [] := nofun

/-- A blank separates. -/
theorem separates_space (around : Surroundings) (cs : List Char) : around.Separates (' ' :: cs) := by
  rintro c ⟨⟩
  exact .inl rfl

/-- What is inside of an argument is inside of the form. -/
theorem holds_of_args {l : Indexing} {c a : Compound} {args : List Compound} {f : Form}
    (h : Form.IsMadeOf l c args f) (mem : a ∈ args) (ordinary : a.Ordinary)
    (holds : Holds found total rest (.compound a)) : Holds found total rest (.form f) := by
  obtain ⟨span, rfl | ⟨second, values, rfl, sign, rfl⟩⟩ := h
  · exact holds.up (List.mem_map_of_mem (List.mem_cons_of_mem _ mem))
  · rcases List.mem_cons.mp mem with rfl | mem
    · exact absurd sign ordinary.sign
    · have inside : Holds found total rest (.assignment ⟨l, values, span⟩) :=
        holds.up (List.mem_cons_of_mem _ (List.mem_map_of_mem mem))
      exact inside.up List.mem_cons_self

/-- So is what is inside of the head. -/
theorem holds_of_head {l : Indexing} {span : Span} {args : List Compound} {f : Form}
    (h : Form.IsMadeOf l ⟨[l], span⟩ args f) (holds : Holds found total rest (.indexing l)) :
    Holds found total rest (.form f) := by
  obtain ⟨span', rfl | ⟨second, values, rfl, sign, rfl⟩⟩ := h
  · have inside : Holds found total rest (.compound ⟨[l], span⟩) := holds.up List.mem_cons_self
    exact inside.up List.mem_cons_self
  · have inside : Holds found total rest (.assignment ⟨l, values, span'⟩) := holds.up List.mem_cons_self
    exact inside.up List.mem_cons_self

/-! ### The forms around a place -/

/-- **As an argument of a command.** -/
theorem leadsIn_argument (h : Filled found text rest) (filler : Filler head)
    (fillers : ∀ t ∈ left ++ right, Filler t)
    (fits : Fits limit depth (head ++ ' ' :: (withAfter ' ' left ++ (text ++ withBefore ' ' right)))) :
    LeadsIn total (form limit (inner limit depth))
      (head ++ ' ' :: (withAfter ' ' left ++ (text ++ withBefore ' ' right))) []
      fun f => Holds found total (rest ++ withBefore ' ' right) (.form f) := by
  obtain ⟨below, rfl, rowFits⟩ := fits.row ' ' left right h.length_pos
    (by simp only [List.length_cons, List.length_append]; omega)
  have headFits : Fits limit (below + 1) head := fits.shorter (by rw [List.length_append]; omega)
  have ends := separates_space .target (withAfter ' ' left ++ (text ++ withBefore ' ' right))
  have reads : LeadsIn total (indexing? limit (inner limit (below + 1)) .target) _ _ _ :=
    (leadsIn_indexing? (Nat.lt_of_le_of_lt (Nat.zero_le _) rowFits.enough)
      (leadsIn_primary?_filler filler headFits ends.not_bareword)
      (collects_nextBracket_end (n := 0) (ends.head_ne (by decide)))).mono
        (Q := fun f => ∃ j, f = some j) fun f ⟨head, brackets, span, same, _⟩ => ⟨_, same⟩
  have compound := (filler.standing.leads headFits
    (separates_space .plain (withAfter ' ' left ++ (text ++ withBefore ' ' right))) total).mono
      (Q := fun c => ∃ i span, c = ⟨[i], span⟩ ∧ True) fun ⟨_, span⟩ ⟨⟨⟨i, single⟩, _⟩, _⟩ =>
        ⟨i, span, congrArg (Compound.mk · span) single, trivial⟩
  have args : Collects total (nextArg limit (inner limit (below + 1))) _ _ [] _ := collects_row nextArg_space
    (fun t ht tail ends => (leadsIn_nextArg_standing (fillers t ht).standing
      (rowFits.fillers t ht).succ ends).mono fun _ ⟨a, same, _⟩ => ⟨a, same⟩)
    (fun tail ends => leadsIn_nextArg_standing h rowFits.item.succ ends)
    (separates_end .plain) leadsIn_nextArg_end
  rw [List.append_nil] at args
  refine (leadsIn_form_command (by simp) (by simp) rowFits.enough reads compound
    (collects_space nextArg_space args)).mono fun f hf => ?_
  obtain ⟨l, span, args, -, ⟨a, mem, ordinary, holds⟩, made⟩ := hf
  exact holds_of_args made mem ordinary holds

/-- **As the right side of an assignment without spaces.** -/
theorem leadsIn_assigned (h : Filled found text rest) (word : Word target)
    (fits : Fits limit depth (target ++ '=' :: text)) :
    LeadsIn total (form limit (inner limit depth)) (target ++ '=' :: text) []
      fun f => Holds found total rest (.form f) := by
  have textFits : Fits limit depth text := fits.shorter (by
    rw [List.length_append, List.length_cons]
    omega)
  have enough : 0 < limit := Nat.lt_of_le_of_lt (Nat.zero_le _) fits.limit
  have ends : Surroundings.target.Separates ('=' :: text) := by
    rintro _ ⟨⟩
    exact .inr (.inr (.inr (.inr ⟨rfl, rfl⟩)))
  have reads : LeadsIn total (indexing? limit (inner limit depth) .target) _ _ _ := leadsIn_indexing?
    (P := fun q => ∃ text span, q = .bareword text span) enough
    ((leadsIn_primary?_word word ends.not_bareword).mono fun p ⟨span, same⟩ => ⟨_, same, _, span, rfl⟩)
    (collects_nextBracket_end (n := 0) (ends.head_ne (by decide)))
  have value := h.leads textFits (separates_end .plain) total
  rw [List.append_nil] at value
  refine (leadsIn_form_assignment (L := fun _ => True) (word.starts_append _) enough (reads.mono fun f hf => ?_) value).mono
    fun f hf => ?_
  · obtain ⟨_, brackets, span', rfl, ⟨text, span, rfl⟩, -⟩ := hf
    exact ⟨text, span, brackets, span', rfl, trivial⟩
  · obtain ⟨left, right, span, span', rfl, -, -, holds⟩ := hf
    have inside : Holds found total (rest ++ []) (.assignment ⟨left, [right], span⟩) :=
      holds.up (List.mem_cons_of_mem _ List.mem_cons_self)
    rw [List.append_nil] at inside
    exact inside.up List.mem_cons_self

/-- The indexing of a target, with the place in its bracket. -/
theorem leadsIn_indexedWord {around : Surroundings} {tail : List Char} (h : Filled found text rest)
    (word : Word target) (fillers : ∀ t ∈ left ++ right, Filler t)
    (fits : RowFits limit depth left text right) (next : tail.head? ≠ some '[') :
    LeadsIn total (indexing? limit (inner limit (depth + 1)) around)
      (target ++ '[' :: (withAfter ' ' left ++ (text ++ (withBefore ' ' right ++ ']' :: tail)))) tail
      fun f => ∃ text span brackets span', f = some ⟨.bareword text span, brackets, span'⟩ ∧
        Holds found total (rest ++ (withBefore ' ' right ++ ']' :: tail))
          (.indexing ⟨.bareword text span, brackets, span'⟩) := by
  have reads : LeadsIn total (indexing? _ _ around) (target ++ _) _ _ := leadsIn_indexed
    (Q := fun q => ∃ text span, q = .bareword text span) h fillers fits next
    ((leadsIn_primary?_word word (not_bareword_bracket around _)).mono
      fun p ⟨span, same⟩ => ⟨_, same, _, span, rfl⟩)
  refine reads.mono fun f hf => ?_
  obtain ⟨_, b, span', rfl, ⟨text, span, rfl⟩, holds⟩ := hf
  exact ⟨text, span, [b], span', rfl, holds.up (List.mem_cons_of_mem _ List.mem_cons_self)⟩

/-- **As an index of a target.** -/
theorem leadsIn_target (h : Filled found text rest) (word : Word target)
    (fillers : ∀ t ∈ left ++ right, Filler t) (filler : Filler value)
    (fits : Fits limit depth (target ++ '[' :: (withAfter ' ' left ++
      (text ++ (withBefore ' ' right ++ ']' :: '=' :: value))))) :
    LeadsIn total (form limit (inner limit depth))
      (target ++ '[' :: (withAfter ' ' left ++ (text ++ (withBefore ' ' right ++ ']' :: '=' :: value)))) []
      fun f => Holds found total (rest ++ (withBefore ' ' right ++ ']' :: '=' :: value)) (.form f) := by
  obtain ⟨below, rfl, rowFits⟩ := fits.row ' ' left right h.length_pos
    (by simp only [List.length_cons, List.length_append]; omega)
  have valueFits : Fits limit (below + 1) value := fits.shorter (by
    simp only [List.length_append, List.length_cons]
    omega)
  have reads : LeadsIn total (indexing? _ _ .target) _ ('=' :: value) _ :=
    leadsIn_indexedWord h word fillers rowFits (by simp)
  have reads' := filler.standing.leads valueFits (separates_end .plain) total
  rw [List.append_nil] at reads'
  refine (leadsIn_form_assignment (L := fun j => Holds found total _ (.indexing j)) (word.starts_append _)
    (Nat.lt_of_le_of_lt (Nat.zero_le _) rowFits.enough) reads reads').mono fun f hf => ?_
  obtain ⟨left, right, span, span', rfl, holds, -⟩ := hf
  have inside : Holds found total _ (.assignment ⟨left, [right], span⟩) := holds.up List.mem_cons_self
  exact inside.up List.mem_cons_self

/-- A lone `=`. -/
theorem leadsIn_sign {i : Inner} (enough : 1 < limit) (cs : List Char) :
    LeadsIn total (compound limit i .plain) ('=' :: ' ' :: cs) (' ' :: cs)
      fun c => ∃ i, c.indexings = [i] := by
  have munched : LeadsIn total (munch (isBarewordChar .plain) : Reader _) (['='] ++ ' ' :: cs) (' ' :: cs)
      (· = ['=']) := leadsIn_munch (List.forall_mem_singleton.mpr rfl) (by rintro c ⟨⟩; rfl)
  have sign : LeadsIn total (primary? limit i .plain) ('=' :: ' ' :: cs) (' ' :: cs)
      fun p => ∃ q, p = some q ∧ True := by
    refine leadsIn_offset fun start => leadsIn_peek ?_
    exact leadsIn_offset fun start => leadsIn_known munched
      (leadsIn_span fun span => leadsIn_pure ⟨_, rfl, trivial⟩)
  refine (leadsIn_compound_primary enough sign (separates_space .plain cs)).mono fun c hc => ?_
  obtain ⟨head, span, span', rfl, -⟩ := hc
  exact ⟨_, rfl⟩

/-- **As an index of a target before a lone equals sign.** -/
theorem leadsIn_spacedTarget (h : Filled found text rest) (word : Word target)
    (fillers : ∀ t ∈ left ++ right, Filler t) (filler : Filler value)
    (fits : Fits limit depth (target ++ '[' :: (withAfter ' ' left ++
      (text ++ (withBefore ' ' right ++ ']' :: ' ' :: '=' :: ' ' :: value))))) :
    LeadsIn total (form limit (inner limit depth))
      (target ++ '[' :: (withAfter ' ' left ++
        (text ++ (withBefore ' ' right ++ ']' :: ' ' :: '=' :: ' ' :: value)))) []
      fun f => Holds found total (rest ++ (withBefore ' ' right ++ ']' :: ' ' :: '=' :: ' ' :: value))
        (.form f) := by
  obtain ⟨below, rfl, rowFits⟩ := fits.row ' ' left right h.length_pos
    (by simp only [List.length_cons, List.length_append]; omega)
  have size : value.length + 4 ≤ (target ++ '[' :: (withAfter ' ' left ++
      (text ++ (withBefore ' ' right ++ ']' :: ' ' :: '=' :: ' ' :: value)))).length := by
    simp only [List.length_append, List.length_cons]
    omega
  have valueFits : Fits limit (below + 1) value := fits.shorter (by omega)
  have enough : 2 < limit := by
    have := fits.limit
    omega
  have speculative : LeadsIn total (indexing? _ _ .target) _ (' ' :: '=' :: ' ' :: value) _ :=
    leadsIn_indexedWord h word fillers rowFits (by simp)
  have reads : LeadsIn total (indexing? _ _ .plain) _ (' ' :: '=' :: ' ' :: value) _ :=
    leadsIn_indexedWord h word fillers rowFits (by simp)
  have head := leadsIn_compound (P := fun j => Holds found total _ (.indexing j))
    (Nat.lt_of_succ_lt enough) (reads.mono fun f hf => by
    obtain ⟨_, _, _, _, rfl, holds⟩ := hf
    exact ⟨_, rfl, holds⟩) (separates_space .plain _)
  have args : Collects total (nextArg limit (inner limit (below + 1))) 2 ('=' :: ' ' :: value) []
      fun _ => True := by
    refine collects_more (P := fun _ => True) (leadsIn_nextArg [] ⟨rfl, rfl⟩
      ((leadsIn_sign (Nat.lt_of_succ_lt enough) value).mono fun c hc => ⟨hc, trivial⟩)) fun _ _ => ?_
    have last : LeadsIn total _ _ [] _ :=
      leadsIn_nextArg_standing filler.standing valueFits (separates_end .plain)
    rw [List.append_nil] at last
    exact collects_space nextArg_space (collects_more last fun _ _ => collects_stop leadsIn_nextArg_end trivial)
  refine (leadsIn_form_command (by simp) (by simp) enough (speculative.mono fun f hf => ?_) head
    (collects_space nextArg_space args)).mono fun f hf => ?_
  · obtain ⟨_, _, _, _, same, -⟩ := hf
    exact ⟨_, same⟩
  · obtain ⟨l, span, args, holds, -, made⟩ := hf
    exact holds_of_head made holds

/-- The form around a place has what is read there inside. -/
theorem leadsIn_place (h : Enclosed text found) (place : AroundPlace before after)
    (fits : Fits limit depth (before ++ (text ++ after))) :
    LeadsIn total (form limit (inner limit depth)) (before ++ (text ++ after)) []
      fun f => Holds found total (text ++ after) (.form f) := by
  cases place with
  | argument filler fillers inside =>
    have filled := filled_within h inside
    have reads : LeadsIn total _ _ [] _ := leadsIn_argument filled filler fillers (by simpa using fits)
    simpa using reads
  | assigned word inside =>
    have filled := filled_within h inside
    have reads : LeadsIn total _ _ [] _ := leadsIn_assigned filled word (by simpa using fits)
    simpa using reads
  | target word fillers filler inside =>
    have filled := filled_within h inside
    have reads : LeadsIn total _ _ [] _ := leadsIn_target filled word fillers filler (by simpa using fits)
    simpa using reads
  | spacedTarget word fillers filler inside =>
    have filled := filled_within h inside
    have reads : LeadsIn total _ _ [] _ := leadsIn_spacedTarget filled word fillers filler (by simpa using fits)
    simpa using reads

/-- A code starts with what is before a place, and there is something. -/
theorem place_opens (place : AroundPlace before after) (cs : List Char) :
    ∃ c body, before ++ cs = c :: body ∧ Opens c := by
  have starts {head : List Char} (opens : ∃ c rest, head = c :: rest ∧ Opens c) (later : List Char) :
      ∃ c body, head ++ later ++ cs = c :: body ∧ Opens c := by
    obtain ⟨c, rest, rfl, opens⟩ := opens
    exact ⟨c, rest ++ later ++ cs, rfl, opens⟩
  cases place with
  | argument filler _ _ => exact starts filler.opens _
  | assigned word _ => exact starts (Filler.word word).opens _
  | target word _ _ _ => exact starts (Filler.word word).opens _
  | spacedTarget word _ _ _ => exact starts (Filler.word word).opens _

end Standing

/-- **What is read the same everywhere is read at every place of a code**, if the whole has fewer than 2^32 bytes. -/
theorem readChunk_place {text before after : List Char} {found : Nat → Primary} (h : Enclosed text found)
    (place : AroundPlace before after) (short : byteLength (before ++ (text ++ after)) < UInt32.size) :
    ∃ chunk, readChunk (String.ofList (before ++ (text ++ after))) = .ok chunk ∧
      (Node.primary (found (byteLength before))).Inside (.chunk chunk) := by
  obtain ⟨c, body, same, opens⟩ := Standing.place_opens place (text ++ after)
  have bytes : byteLength before + byteLength (text ++ after) = byteLength (c :: body) := by
    rw [← byteLength_append, same]
  have fits : Grammar.Fits ((c :: body).length + 1) ((c :: body).length + 1) (before ++ (text ++ after)) :=
    same ▸ ⟨Nat.lt_succ_self _, Nat.le_succ _⟩
  have form : LeadsIn (byteLength (c :: body)) _ _ [] _ := Standing.leadsIn_place h place fits
  rw [same] at form short ⊢
  obtain ⟨chunk, stop, run, -, f, span, span', rfl, o, ho, inside⟩ :=
    Grammar.leadsIn_chunk opens (Nat.zero_lt_succ _) form 0 (Nat.zero_add _)
  -- the bytes before the place are those that are not left there
  obtain rfl : o = byteLength before := by omega
  have inPipeline : (Node.primary (found (byteLength before))).Inside (.pipeline ⟨[f], span⟩) :=
    .child List.mem_cons_self inside
  have inChunk : (Node.primary (found (byteLength before))).Inside (.chunk ⟨[⟨[f], span⟩], span'⟩) :=
    .child List.mem_cons_self inPipeline
  have chars : (String.ofList (c :: body)).toList = c :: body := String.toList_ofList
  have enough : (String.ofList (c :: body)).toList.length + 1 ≤ (c :: body).length + 1 := by rw [chars]
  have start : Cursor.start (String.ofList (c :: body)).toList = ⟨0, c :: body⟩ := congrArg _ chars
  have read := readChunk_of_chunk (chars.symm ▸ short) enough enough ((congrArg _ start).trans run)
  exact ⟨_, read, inChunk⟩

/-! ## Reading is compositional -/

/-- **The text is read as the same primary**, whatever is around it, in code of fewer than 2^32 bytes. -/
structure ReadAnywhere (text : List Char) (found : Nat → Primary) : Prop where
  /-- wherever the grammar looks for a primary, it finds this one -/
  reads : ∀ {limit depth : Nat}, Grammar.Fits limit depth text → ∀ around o rest,
    o + byteLength (text ++ rest) < UInt32.size →
      @Grammar.primary? .word limit (@Grammar.inner .word limit depth) around ⟨o, text ++ rest⟩ =
        .ok (some (found o), ⟨o + byteLength text, rest⟩)
  /-- a code with the text at any of the places is read, and has this primary there -/
  placed : ∀ {before after : List Char}, AroundPlace before after →
    byteLength (before ++ (text ++ after)) < UInt32.size →
    ∃ chunk, readChunk (String.ofList (before ++ (text ++ after))) = .ok chunk ∧
      (Node.primary (found (byteLength before))).Inside (.chunk chunk)
  /-- in any code that is read, a primary that starts where the text is written is this one -/
  found : ∀ {code : String} {chunk : Chunk} {p : Primary} {before rest : List Char},
    readChunk code = .ok chunk → (Node.primary p).Inside (.chunk chunk) →
      code.toList = before ++ (text ++ rest) → p.span.start = byteLength before →
        p = found (byteLength before)

/-- An enclosed text is read as the same primary anywhere. -/
theorem Enclosed.readAnywhere {text : List Char} {found : Nat → Primary} (h : Enclosed text found) :
    ReadAnywhere text found where
  reads := @fun limit depth fits around o rest short => by
    have here : o < UInt32.size := Nat.lt_of_le_of_lt (Nat.le_add_right _ _) short
    have followed : Follows UInt32.size ⟨o, text ++ rest⟩
        (@Grammar.primary? .word limit (@Grammar.inner .word limit depth) around)
        (Grammar.primary? limit (Grammar.inner limit depth) around) :=
      Grammar.follows_primary? (Grammar.follows_inner UInt32.size limit depth) around here
    have agreed := followed.agrees short
    rw [h.reads fits around o rest] at agreed
    exact agreed.eq_ok
  placed place short := readChunk_place h place short
  found read inside split starts := primary_eq_of_starts (text.length + 1) read inside split starts
    fun high deep around => h.reads ⟨high, Nat.le_of_succ_le deep⟩ around _ _

/-- **Reading is compositional.**  Two codes, the second on the line after the first, are read as the pipelines
of the first and then those of the second, further on by the bytes of the first and of the line end.  A
code between the delimiters of an output capture or of a lambda, before a line end, is read as the
capture or the lambda of just its pipelines, further on by what is before them.  The whole code has to have fewer
than 2^32 bytes. -/
theorem readChunk_compositional {first second : String} {one two : Chunk}
    (h₁ : readChunk first = .ok one) (h₂ : readChunk second = .ok two) :
    (byteLength (first ++ "\n" ++ second).toList < UInt32.size →
      ∃ whole, readChunk (first ++ "\n" ++ second) = .ok whole ∧ whole.pipelines =
        one.pipelines ++ two.pipelines.map (Pipeline.shift (byteLength first.toList + 1))) ∧
    ReadAnywhere (captureText first) (captureAt · first one) ∧
    ReadAnywhere (lambdaText first) (lambdaAt · first one) :=
  ⟨fun short => readChunk_append short h₁ h₂, (enclosed_capture h₁).readAnywhere, (enclosed_lambda h₁).readAnywhere⟩

/-- So it is for `put a`, before `x=b` and as the index of an assignment target. -/
theorem readChunk_compositional_in_target : ∃ one two,
    readChunk "put a" = .ok one ∧ readChunk "x=b" = .ok two ∧
      (∃ whole, readChunk "put a\nx=b" = .ok whole ∧
        whole.pipelines = one.pipelines ++ two.pipelines.map (Pipeline.shift 6)) ∧
      ∃ chunk, readChunk "x[\x7b put a\n\x7d]=b" = .ok chunk ∧
        (Node.primary (lambdaAt 2 "put a" one)).Inside (.chunk chunk) := by
  have word (c : Char) (h : isAlphanumeric c = true) : Word [c] :=
    ⟨nofun, fun _ hc => List.mem_singleton.mp hc ▸ h⟩
  let word₁ : Compound := ⟨[⟨.bareword "put" ⟨0, 3⟩, [], ⟨0, 3⟩⟩], ⟨0, 3⟩⟩
  let word₂ : Compound := ⟨[⟨.bareword "a" ⟨4, 5⟩, [], ⟨4, 5⟩⟩], ⟨4, 5⟩⟩
  let value : Compound := ⟨[⟨.bareword "b" ⟨2, 3⟩, [], ⟨2, 3⟩⟩], ⟨2, 3⟩⟩
  have one : readChunk "put a" = .ok ⟨[⟨[.command word₁ [word₂] ⟨0, 5⟩], ⟨0, 5⟩⟩], ⟨0, 5⟩⟩ := rfl
  have two : readChunk "x=b" = .ok ⟨[⟨[.assign [⟨⟨.bareword "x" ⟨0, 1⟩, [], ⟨0, 1⟩⟩, [value], ⟨0, 3⟩⟩]
    ⟨0, 3⟩], ⟨0, 3⟩⟩], ⟨0, 3⟩⟩ := rfl
  obtain ⟨lines, -, lambda⟩ := readChunk_compositional one two
  refine ⟨_, _, one, two, lines (by decide +kernel), ?_⟩
  have alone : ∀ t ∈ ([] ++ [] : List (List Char)), Filler t := nofun
  have placed := lambda.placed (.target (word 'x' (by decide)) alone (.word (word 'b' (by decide))) .here)
  have text : String.ofList (['x'] ++ '[' :: (withAfter ' ' [] ++ []) ++ (lambdaText "put a" ++
    ([] ++ (withBefore ' ' [] ++ ']' :: '=' :: ['b'])))) = "x[\x7b put a\n\x7d]=b" := rfl
  rw [text] at placed
  exact placed (by decide +kernel)

/-- A code of blanks is read as no pipelines. -/
theorem readChunk_blanks {code : String} {n : Nat} (blank : code.toList = List.replicate n ' ')
    (short : n < UInt32.size) :
    readChunk code = .ok ⟨[], ⟨0, n⟩⟩ := by
  have bytes : byteLength code.toList = n := by
    rw [blank]
    exact byteLength_replicate rfl n
  have skipped : skipSeparators (Cursor.start code.toList) = .ok ((), ⟨n, []⟩) := by
    have space : (isSpaceOrNewline ' ' || ' ' == ';') = true := rfl
    have spaces := @skip_spaces (fun c => isSpaceOrNewline c || c == ';') space n 0 []
    rw [List.append_nil, Nat.zero_add, ← blank] at spaces
    exact congrArg (fun c => Except.ok ((), c)) spaces
  let limit := code.toList.length + 1
  have round : Grammar.nextPipeline none limit (Grammar.inner limit limit) (Cursor.start code.toList) =
      .ok (.stop, ⟨n, []⟩) := (run_bind skipped).trans rfl
  have rounds : repeatedOnto (Grammar.nextPipeline none limit (Grammar.inner limit limit)) limit []
      (Cursor.start code.toList) = .ok ([], ⟨n, []⟩) := (run_bind round).trans rfl
  exact readChunk_of_chunk (bytes.trans_lt short) (Nat.le_refl limit) (Nat.le_refl limit)
    (Grammar.chunk_of_rounds rounds)

/-- **Codes that are too long together.**  A code of 2^32 - 1 blanks is read, and so is the empty code; but not the
one and, on the next line, the other, nor the first between the delimiters of a capture or of a lambda, where they
stand for an argument. -/
theorem readChunk_not_compositional :
    let first := String.ofList (List.replicate (UInt32.size - 1) ' ')
    readChunk first = .ok ⟨[], ⟨0, UInt32.size - 1⟩⟩ ∧ readChunk "" = .ok ⟨[], ⟨0, 0⟩⟩ ∧
      (∀ whole, readChunk (first ++ "\n" ++ "") ≠ .ok whole) ∧
      (∀ whole, readChunk (String.ofList (['f', ' '] ++ (captureText first ++ []))) ≠ .ok whole) ∧
      ∀ whole, readChunk (String.ofList (['f', ' '] ++ (lambdaText first ++ []))) ≠ .ok whole := by
  intro first
  have blank : first.toList = List.replicate (UInt32.size - 1) ' ' := String.toList_ofList
  have bytes : byteLength first.toList = UInt32.size - 1 := by
    rw [blank]
    exact byteLength_replicate rfl _
  refine ⟨readChunk_blanks blank (by decide), rfl, readChunk_ne_ok ?_, readChunk_ne_ok ?_, readChunk_ne_ok ?_⟩
  · rw [toList_lines, byteLength_append, bytes]
    decide
  · rw [String.toList_ofList, byteLength_append, byteLength_append, byteLength_captureText, bytes]
    decide
  · rw [String.toList_ofList, byteLength_append, byteLength_append, byteLength_lambdaText, bytes]
    decide

end ValueShell
