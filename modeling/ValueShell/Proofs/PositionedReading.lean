/-
  Readers that succeed, at a known place of the text.

  As in `Reading`, a reader is followed forwards, from the text before it to the text that it leaves.  Here it
  matters where in the code that is: at any moment the bytes before the cursor and those from it on are
  `total` bytes together, so the text that is left says where it is.

  A repetition is told by its rounds (`Collects`): one that ends it, or one that finds something and what the
  rounds after it find.
-/
import ValueShell.Proofs.ReaderRuns
import ValueShell.Proofs.Reading

namespace ValueShell

open TextReader Reader

namespace TextReader

variable {ε α β : Type} {total : Nat} {P : α → Prop} {cs cs' cs'' : List Char}

/-- **In a text of `total` bytes**, the reader takes what is left of it to `cs'`, and finds something with the
property. -/
def LeadsIn (total : Nat) (x : TextReader ε α) (cs cs' : List Char) (P : α → Prop) : Prop :=
  ∀ o, o + byteLength cs = total →
    ∃ a o', x ⟨o, cs⟩ = .ok (a, ⟨o', cs'⟩) ∧ o' + byteLength cs' = total ∧ P a

/-! ## Sequence and single steps -/

/-- Less may be said of what is found. -/
theorem LeadsIn.mono {x : TextReader ε α} {Q : α → Prop} (h : LeadsIn total x cs cs' P)
    (hq : ∀ a, P a → Q a) : LeadsIn total x cs cs' Q := by
  intro o ho
  obtain ⟨a, o', run, ho', found⟩ := h o ho
  exact ⟨a, o', run, ho', hq a found⟩

/-- What is returned is found, and nothing is read. -/
theorem leadsIn_pure {a : α} (h : P a) : LeadsIn total (pure a : TextReader ε α) cs cs P :=
  fun o ho => ⟨a, o, rfl, ho, h⟩

/-- **One reader after the other.** -/
theorem leadsIn_bind {x : TextReader ε β} {k : β → TextReader ε α} {Q : β → Prop}
    (hx : LeadsIn total x cs cs' Q) (hk : ∀ b, Q b → LeadsIn total (k b) cs' cs'' P) :
    LeadsIn total (x >>= k) cs cs'' P := by
  intro o ho
  obtain ⟨b, o', run, ho', found⟩ := hx o ho
  obtain ⟨a, o'', run', ho'', found'⟩ := hk b found o' ho'
  exact ⟨a, o'', (run_bind run).trans run', ho'', found'⟩

/-- What comes after a reader whose result is known. -/
theorem leadsIn_known {x : TextReader ε β} {k : β → TextReader ε α} {b : β}
    (hx : LeadsIn total x cs cs' (· = b)) (hk : LeadsIn total (k b) cs' cs'' P) :
    LeadsIn total (x >>= k) cs cs'' P :=
  leadsIn_bind hx fun _ same => same ▸ hk

/-- The offset may be any number. -/
theorem leadsIn_offset {k : Nat → TextReader ε α} (hk : ∀ n, LeadsIn total (k n) cs cs' P) :
    LeadsIn total (offset >>= k) cs cs' P := fun o ho => hk o o ho

/-- What comes next is the first letter of the text. -/
theorem leadsIn_peek {k : Option Char → TextReader ε α} (hk : LeadsIn total (k cs.head?) cs cs' P) :
    LeadsIn total (peek? >>= k) cs cs' P := hk

theorem leadsIn_second {k : Option Char → TextReader ε α}
    (hk : LeadsIn total (k cs.tail.head?) cs cs' P) : LeadsIn total (second? >>= k) cs cs' P := hk

/-- To move takes one letter. -/
theorem leadsIn_advance {k : Unit → TextReader ε α} {c : Char} (hk : LeadsIn total (k ()) cs cs' P) :
    LeadsIn total (advance >>= k) (c :: cs) cs' P :=
  fun o ho => hk (o + c.utf8Size) ((Nat.add_assoc _ _ _).trans ho)

/-- The characters that are munched, and nothing after them. -/
theorem leadsIn_munch {p : Char → Bool} {run : List Char} (hrun : ∀ c ∈ run, p c = true)
    (hnext : ∀ c ∈ cs.head?, p c = false) :
    LeadsIn total (munch p : TextReader ε _) (run ++ cs) cs (· = run) := by
  intro o ho
  obtain ⟨munched, o', same, rfl⟩ := leads_munch (ε := ε) hrun hnext o
  obtain ⟨taken, past⟩ := Prod.mk.inj (Except.ok.inj same)
  have moved : o + byteLength ((munched ++ cs).takeWhile p) = o' := congrArg Cursor.offset past
  rw [taken] at moved
  refine ⟨munched, o', same, ?_, rfl⟩
  rw [← moved, Nat.add_assoc, ← byteLength_append, ho]

/-- An attempt that finds nothing moves nothing. -/
theorem leadsIn_attempt_none {x : TextReader ε (Option α)} (h : LeadsIn total x cs cs' (· = none)) :
    LeadsIn total (attempt x) cs cs (· = none) := by
  intro o ho
  obtain ⟨_, o', run, -, rfl⟩ := h o ho
  refine ⟨none, o, ?_, ho, rfl⟩
  rw [attempt, run]

/-- An attempt finds what the reader finds. -/
theorem leadsIn_attempt_some {x : TextReader ε (Option α)}
    (h : LeadsIn total x cs cs' fun r => ∃ a, r = some a ∧ P a) :
    LeadsIn total (attempt x) cs cs' fun r => ∃ a, r = some a ∧ P a := by
  intro o ho
  obtain ⟨_, o', run, ho', a, rfl, found⟩ := h o ho
  refine ⟨some a, o', ?_, ho', a, rfl, found⟩
  rw [attempt, run]

/-! ## Repetition -/

variable {round : TextReader ε (Round α)} {n : Nat} {R : List α → Prop}

/-- **Rounds that come to an end**, at most `n` of which ask for another one. -/
def Collects (total : Nat) (round : TextReader ε (Round α)) (n : Nat) (cs cs' : List Char)
    (R : List α → Prop) : Prop :=
  ∀ limit found, n < limit → LeadsIn total (repeatedOnto round limit found) cs cs' fun as =>
    ∃ new, as = found.reverse ++ new ∧ R new

theorem Collects.mono {R' : List α → Prop} (h : Collects total round n cs cs' R)
    (hr : ∀ as, R as → R' as) : Collects total round n cs cs' R' :=
  fun limit found enough => (h limit found enough).mono fun _ ⟨new, same, hnew⟩ => ⟨new, same, hr new hnew⟩

/-- The last round stops. -/
theorem collects_stop (h : LeadsIn total round cs cs' (· = .stop)) (hr : R []) :
    Collects total round n cs cs' R := by
  intro limit found enough
  obtain ⟨limit, rfl⟩ : ∃ l, limit = l + 1 := Nat.exists_eq_succ_of_ne_zero (by omega)
  exact leadsIn_known h (leadsIn_pure ⟨[], (List.append_nil _).symm, hr⟩)

/-- Or it stops with one item more. -/
theorem collects_last (h : LeadsIn total round cs cs' fun r => ∃ a, r = .last a ∧ R [a]) :
    Collects total round n cs cs' R := by
  intro limit found enough
  obtain ⟨limit, rfl⟩ : ∃ l, limit = l + 1 := Nat.exists_eq_succ_of_ne_zero (by omega)
  refine leadsIn_bind h fun r hr => ?_
  obtain ⟨a, rfl, hr⟩ := hr
  exact leadsIn_pure ⟨[a], List.reverse_cons, hr⟩

/-- A round with an item, and those after it. -/
theorem collects_more (h : LeadsIn total round cs cs' fun r => ∃ a, r = .more a ∧ P a)
    (later : ∀ a, P a → Collects total round n cs' cs'' fun as => R (a :: as)) :
    Collects total round (n + 1) cs cs'' R := by
  intro limit found enough
  obtain ⟨limit, rfl⟩ : ∃ l, limit = l + 1 := Nat.exists_eq_succ_of_ne_zero (by omega)
  refine leadsIn_bind h fun r hr => ?_
  obtain ⟨a, rfl, ha⟩ := hr
  refine (later a ha limit (a :: found) (Nat.lt_of_succ_lt_succ enough)).mono fun as has => ?_
  obtain ⟨new, rfl, hnew⟩ := has
  exact ⟨a :: new, by simp, hnew⟩

/-- A repetition collects the items of its rounds, if the limit allows for them. -/
theorem leadsIn_repeated {limit : Nat} (h : Collects total round n cs cs' R) (enough : n < limit) :
    LeadsIn total (repeated limit round) cs cs' R := by
  refine (h limit [] enough).mono fun as has => ?_
  obtain ⟨new, rfl, hnew⟩ := has
  exact hnew

/-- Texts before the one that is looked for, each of which takes a round. -/
theorem collects_before (texts : List (List Char))
    (one : ∀ text ∈ texts, ∀ n cs, Collects total round n cs cs' R →
      Collects total round (n + 1) (text ++ cs) cs' R)
    (h : Collects total round n cs cs' R) :
    Collects total round (n + texts.length) (texts.flatten ++ cs) cs' R := by
  induction texts with
  | nil => exact h
  | cons text texts ih =>
    have rest := ih fun t ht => one t (List.mem_cons_of_mem _ ht)
    rw [List.flatten_cons, List.append_assoc]
    exact one text List.mem_cons_self _ _ rest

end TextReader

namespace Reader

variable {α : Type} {total start : Nat} {P : α → Prop} {cs cs' : List Char}

theorem leadsIn_span {k : Span → Reader α} (hk : ∀ span, LeadsIn total (k span) cs cs' P) :
    LeadsIn total (spanFrom start >>= k) cs cs' P := fun o ho => hk ⟨start, o⟩ o ho

/-- Nothing is skipped before a character that is neither a blank nor starts a comment. -/
theorem leadsIn_skipBlank {c : Char} {k : PUnit → Reader α} (hc : isSpaceOrNewline c = false)
    (hash : c ≠ '#') (hk : LeadsIn total (k ⟨⟩) (c :: cs) cs' P) :
    LeadsIn total (skipBlank >>= k) (c :: cs) cs' P := by
  intro o ho
  have stays : Cursor.skip isSpaceOrNewline false o (c :: cs) = ⟨o, c :: cs⟩ := by
    rw [Cursor.skip, hc, if_neg Bool.false_ne_true, if_neg hash]
  obtain ⟨a, o', run, found⟩ := hk o ho
  refine ⟨a, o', ?_, found⟩
  show k ⟨⟩ (Cursor.skip isSpaceOrNewline false o (c :: cs)) = _
  rw [stays, run]

/-- Where no blank is next, none is skipped. -/
theorem leadsIn_skipSpaces {k : PUnit → Reader α} (hc : ∀ c ∈ cs.head?, isSpace c = false)
    (hk : LeadsIn total (k ⟨⟩) cs cs' P) : LeadsIn total (skipSpaces >>= k) cs cs' P := by
  intro o ho
  have stays : Cursor.dropWhile isSpace ⟨o, cs⟩ = ⟨o, cs⟩ := by
    cases cs with
    | nil => rfl
    | cons c cs => simp [Cursor.dropWhile, hc c rfl, byteLength]
  obtain ⟨a, o', run, found⟩ := hk o ho
  refine ⟨a, o', ?_, found⟩
  show k ⟨⟩ (Cursor.dropWhile isSpace ⟨o, cs⟩) = _
  rw [stays, run]

theorem leadsIn_skipSpaces_end {k : PUnit → Reader α} (hk : LeadsIn total (k ⟨⟩) [] cs' P) :
    LeadsIn total (skipSpaces >>= k) [] cs' P :=
  leadsIn_skipSpaces (fun _ none => absurd none (Option.not_mem_none _)) hk

end Reader

end ValueShell
