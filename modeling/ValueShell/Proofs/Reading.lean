/-
  Readers that succeed.

  A reader does not care where in the code it stands, except that it notes the place in spans.  So what it
  does is best told as a move from one text to the next: `Leads x cs cs' P` says that `x`, with the text
  `cs` before it, finds something with the property `P` and then has `cs'` before it.

  A repetition is told by what is left to find.  `At cs items` describes the texts before which the items
  are still to come; one round has to take one of them off.
-/
import Mathlib.Data.List.Forall2
import ValueShell.Syntax.Reader

namespace ValueShell

namespace TextReader

variable {ε α β : Type} {P : α → Prop} {cs cs' cs'' : List Char}

/-- **The reader takes its text to another one**, and finds something with the property. -/
def Leads (x : TextReader ε α) (cs cs' : List Char) (P : α → Prop) : Prop :=
  ∀ offset, ∃ a offset', x ⟨offset, cs⟩ = .ok (a, ⟨offset', cs'⟩) ∧ P a

/-! ## Sequence -/

/-- Less may be said of what is found. -/
theorem Leads.mono {x : TextReader ε α} {Q : α → Prop} (h : Leads x cs cs' P)
    (hq : ∀ a, P a → Q a) : Leads x cs cs' Q := by
  intro offset
  obtain ⟨a, offset', hx, ha⟩ := h offset
  exact ⟨a, offset', hx, hq a ha⟩

/-- What is returned is found, and nothing is read. -/
theorem leads_pure {a : α} (h : P a) : Leads (pure a : TextReader ε α) cs cs P :=
  fun offset => ⟨a, offset, rfl, h⟩

/-- **One reader after the other.** -/
theorem leads_bind {x : TextReader ε β} {k : β → TextReader ε α} {Q : β → Prop}
    (hx : Leads x cs cs' Q) (hk : ∀ b, Q b → Leads (k b) cs' cs'' P) :
    Leads (x >>= k) cs cs'' P := by
  intro offset
  obtain ⟨b, offset', hb, hq⟩ := hx offset
  obtain ⟨a, offset'', ha, hp⟩ := hk b hq offset'
  refine ⟨a, offset'', ?_, hp⟩
  show (x ⟨offset, cs⟩).bind _ = _
  rw [hb]
  exact ha

/-- What comes after a reader whose result is known. -/
theorem leads_known {x : TextReader ε β} {k : β → TextReader ε α} {b : β}
    (hx : Leads x cs cs' (· = b)) (hk : Leads (k b) cs' cs'' P) : Leads (x >>= k) cs cs'' P :=
  leads_bind hx fun _ hb => hb ▸ hk

/-- What comes after a reader whose result does not matter. -/
theorem leads_then {x : TextReader ε β} {k : β → TextReader ε α}
    (hx : Leads x cs cs' fun _ => True) (hk : ∀ b, Leads (k b) cs' cs'' P) :
    Leads (x >>= k) cs cs'' P := leads_bind hx fun b _ => hk b

/-! ## Single steps -/

/-- The offset may be any number. -/
theorem leads_offset {k : Nat → TextReader ε α} (hk : ∀ n, Leads (k n) cs cs' P) :
    Leads (offset >>= k) cs cs' P := fun offset => hk offset offset

/-- What comes next is the first letter of the text. -/
theorem leads_peek {k : Option Char → TextReader ε α} (hk : Leads (k cs.head?) cs cs' P) :
    Leads (peek? >>= k) cs cs' P := hk

theorem leads_second {k : Option Char → TextReader ε α} (hk : Leads (k cs.tail.head?) cs cs' P) :
    Leads (second? >>= k) cs cs' P := hk

/-- To move takes one letter. -/
theorem leads_advance {k : Unit → TextReader ε α} {c : Char} (hk : Leads (k ()) cs cs' P) :
    Leads (advance >>= k) (c :: cs) cs' P := fun offset => hk (offset + c.utf8Size)

theorem leads_modify {change : Cursor → Cursor} {k : PUnit → TextReader ε α}
    (hc : ∀ offset, (change ⟨offset, cs⟩).rest = cs') (hk : Leads (k ⟨⟩) cs' cs'' P) :
    Leads (modify change >>= k) cs cs'' P := by
  intro offset
  have hcursor : change ⟨offset, cs⟩ = ⟨(change ⟨offset, cs⟩).offset, cs'⟩ := by
    rw [← hc offset]
  obtain ⟨a, offset', ha, hp⟩ := hk (change ⟨offset, cs⟩).offset
  refine ⟨a, offset', ?_, hp⟩
  show k ⟨⟩ (change ⟨offset, cs⟩) = _
  rw [hcursor]
  exact ha

/-- The characters that are munched, and nothing after them. -/
theorem leads_munch {p : Char → Bool} {run : List Char} (hrun : ∀ c ∈ run, p c = true)
    (hnext : ∀ c ∈ cs.head?, p c = false) :
    Leads (munch p : TextReader ε _) (run ++ cs) cs (· = run) := by
  -- both halves of the text part at the first character that is not munched
  have takes : (run ++ cs).takeWhile p = run := by
    rw [List.takeWhile_append_of_pos hrun]
    cases cs with
    | nil => simp
    | cons c cs => simp [hnext c rfl]
  have drops : (run ++ cs).dropWhile p = cs := by
    rw [List.dropWhile_append_of_pos hrun]
    cases cs with
    | nil => rfl
    | cons c cs => simp [hnext c rfl]
  intro offset
  refine ⟨run, offset + byteLength run, ?_, rfl⟩
  show Except.ok ((run ++ cs).takeWhile p, Cursor.dropWhile p ⟨offset, run ++ cs⟩) = _
  rw [Cursor.dropWhile, takes, drops]

/-- An attempt that finds nothing moves nothing. -/
theorem leads_attempt_none {x : TextReader ε (Option α)} (h : Leads x cs cs' (· = none)) :
    Leads (attempt x) cs cs (· = none) := by
  intro offset
  obtain ⟨a, offset', hx, rfl⟩ := h offset
  refine ⟨none, offset, ?_, rfl⟩
  rw [attempt, hx]

/-! ## Repetition -/

section Repetition

variable {round : TextReader ε (Round α)} {R : α → β → Prop}
  (At : List Char → List β → Prop) (after : List Char)

/-- A repetition, item by item; `At` says how much of the text is left. -/
theorem leads_repeatedOnto (stop : ∀ cs, At cs [] → Leads round cs after (· = .stop))
    (more : ∀ cs b bs, At cs (b :: bs) →
      ∃ next, At next bs ∧ Leads round cs next fun r => ∃ a, r = .more a ∧ R a b)
    {bs : List β} {limit : Nat} (hlimit : bs.length < limit) (found : List α) (h : At cs bs) :
    Leads (repeatedOnto round limit found) cs after
      fun as => ∃ new, as = found.reverse ++ new ∧ List.Forall₂ R new bs := by
  -- on what is left to find; the bound on rounds and what was found so far move along with it
  induction bs generalizing cs limit found with
  | nil =>
    obtain ⟨limit, rfl⟩ := Nat.exists_eq_add_of_lt hlimit
    exact leads_known (stop cs h) (leads_pure ⟨[], (List.append_nil _).symm, .nil⟩)
  | cons b bs ih =>
    obtain ⟨limit, rfl⟩ : ∃ n, limit = n + 1 := Nat.exists_eq_succ_of_ne_zero (by omega)
    obtain ⟨next, hnext, hround⟩ := more cs b bs h
    refine leads_bind hround fun r hr => ?_
    obtain ⟨a, rfl, ha⟩ := hr
    refine (ih (Nat.lt_of_succ_lt_succ hlimit) (a :: found) hnext).mono fun as has => ?_
    obtain ⟨new, rfl, hnew⟩ := has
    exact ⟨a :: new, by simp, .cons ha hnew⟩

/-- **A repetition** whose rounds take off one item each finds all of them. -/
theorem leads_repeated (stop : ∀ cs, At cs [] → Leads round cs after (· = .stop))
    (more : ∀ cs b bs, At cs (b :: bs) →
      ∃ next, At next bs ∧ Leads round cs next fun r => ∃ a, r = .more a ∧ R a b)
    {bs : List β} {limit : Nat} (hlimit : bs.length < limit) (h : At cs bs) :
    Leads (repeated limit round) cs after fun as => List.Forall₂ R as bs := by
  refine (leads_repeatedOnto At after stop more hlimit [] h).mono fun as has => ?_
  obtain ⟨new, rfl, hnew⟩ := has
  exact hnew

/-- One round that says it is the last. -/
theorem leads_repeated_last {P : α → Prop} {limit : Nat} (hlimit : 0 < limit)
    (hround : Leads round cs after fun r => ∃ a, r = .last a ∧ P a) :
    Leads (repeated limit round) cs after fun as => ∃ a, as = [a] ∧ P a := by
  obtain ⟨limit, rfl⟩ : ∃ n, limit = n + 1 := Nat.exists_eq_succ_of_ne_zero (by omega)
  refine leads_bind hround fun r hr => ?_
  obtain ⟨a, rfl, ha⟩ := hr
  exact leads_pure ⟨a, rfl, ha⟩

/-- A round that finds nothing. -/
theorem leads_repeated_none {limit : Nat} (hlimit : 0 < limit)
    (hround : Leads round cs after (· = .stop)) :
    Leads (repeated limit round) cs after (· = []) := by
  obtain ⟨limit, rfl⟩ : ∃ n, limit = n + 1 := Nat.exists_eq_succ_of_ne_zero (by omega)
  exact leads_known hround (leads_pure rfl)

/-- One round that finds something, and one that finds nothing. -/
theorem leads_repeated_once {P : α → Prop} {limit : Nat} (hlimit : 1 < limit)
    (first : Leads round cs after fun r => ∃ a, r = .more a ∧ P a)
    (second : Leads round after after (· = .stop)) :
    Leads (repeated limit round) cs after fun as => ∃ a, as = [a] ∧ P a := by
  obtain ⟨limit, rfl⟩ : ∃ n, limit = n + 2 := Nat.exists_eq_add_of_le' hlimit
  refine leads_bind first fun r hr => ?_
  obtain ⟨a, rfl, ha⟩ := hr
  exact leads_known second (leads_pure ⟨a, rfl, ha⟩)

end Repetition

end TextReader

namespace Reader

open TextReader

variable {α : Type} {P : α → Prop} {cs cs' : List Char}

/-- Spans note where the reader is, which nothing depends on. -/
theorem leads_span {start : Nat} {k : Span → Reader α} (hk : ∀ span, Leads (k span) cs cs' P) :
    Leads (spanFrom start >>= k) cs cs' P := fun offset => hk ⟨start, offset⟩ offset

/-- Nothing is skipped before a character that is neither a separator nor starts a comment. -/
theorem leads_skip {separator : Char → Bool} {c : Char} {k : PUnit → Reader α}
    (hc : separator c = false) (hhash : c ≠ '#') (hk : Leads (k ⟨⟩) (c :: cs) cs' P) :
    Leads ((modify fun cursor => Cursor.skip separator false cursor.offset cursor.rest) >>= k)
      (c :: cs) cs' P := by
  refine leads_modify (fun offset => ?_) hk
  rw [Cursor.skip, hc, if_neg nofun, if_neg hhash]

/-- Where nothing blank is next, nothing is skipped. -/
theorem leads_skipBlank {c : Char} {k : PUnit → Reader α} (hc : isSpaceOrNewline c = false)
    (hhash : c ≠ '#') (hk : Leads (k ⟨⟩) (c :: cs) cs' P) :
    Leads (skipBlank >>= k) (c :: cs) cs' P := leads_skip hc hhash hk

/-- A blank before it is skipped. -/
theorem leads_skipBlank_space {k : PUnit → Reader α} (hk : Leads (skipBlank >>= k) cs cs' P) :
    Leads (skipBlank >>= k) (' ' :: cs) cs' P := fun offset => hk (offset + 1)

/-- A blank in front makes no difference. -/
theorem leads_skipBlank_either {cs₀ : List Char} {k : PUnit → Reader α}
    (h : cs = cs₀ ∨ cs = ' ' :: cs₀) (hk : Leads (skipBlank >>= k) cs₀ cs' P) :
    Leads (skipBlank >>= k) cs cs' P := by
  rcases h with rfl | rfl
  · exact hk
  · exact leads_skipBlank_space hk

theorem leads_skipSpaces {k : PUnit → Reader α} (hc : ∀ c ∈ cs.head?, isSpace c = false)
    (hk : Leads (k ⟨⟩) cs cs' P) : Leads (skipSpaces >>= k) cs cs' P := by
  refine leads_modify (fun offset => ?_) hk
  cases cs with
  | nil => rfl
  | cons c cs => simp [Cursor.dropWhile, hc c rfl]

theorem leads_skipSpaces_end {k : PUnit → Reader α} (hk : Leads (k ⟨⟩) [] cs' P) :
    Leads (skipSpaces >>= k) [] cs' P :=
  leads_skipSpaces (fun _ none => absurd none (Option.not_mem_none _)) hk

theorem leads_skipSpaces_space {k : PUnit → Reader α} (hk : Leads (skipSpaces >>= k) cs cs' P) :
    Leads (skipSpaces >>= k) (' ' :: cs) cs' P := by
  intro offset
  obtain ⟨a, offset', ha, hp⟩ := hk (offset + 1)
  refine ⟨a, offset', ?_, hp⟩
  show k ⟨⟩ (Cursor.dropWhile isSpace ⟨offset, ' ' :: cs⟩) = _
  change k ⟨⟩ (Cursor.dropWhile isSpace ⟨offset + 1, cs⟩) = _ at ha
  have size : ' '.utf8Size = 1 := by decide
  rw [← ha]
  simp [Cursor.dropWhile, isSpace, byteLength, size, Nat.add_assoc]

end Reader

end ValueShell
