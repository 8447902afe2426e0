/-
  Texts inside brackets and braces.

  A text that is read as the same primary everywhere (`Enclosed`) is read as that primary inside any number
  of brackets and braces (`Within`): as an item of a list or of a braced list, as an index, as the key or the
  value of a map.  What stands beside it there are words and other such texts (`Filler`).

  What is read around it is a compound that has it inside (`Filled`).  There is one step outwards for each
  kind of bracket, and `filled_within` takes all of them.
-/
import ValueShell.Proofs.Composition
import ValueShell.Proofs.PositionedReading
import ValueShell.Proofs.Printing

namespace ValueShell

open TextReader Reader

/-! ## Texts that are read the same everywhere -/

/-- The characters that start a filler, or something with a bracket or a brace around it. -/
def Opens (c : Char) : Prop := c = '(' ∨ c = '{' ∨ c = '[' ∨ isAlphanumeric c = true

/-- What opens a filler is none of the signs. -/
theorem Opens.ne {c : Char} (h : Opens c) {d : Char}
    (hd : d ≠ '(' ∧ d ≠ '{' ∧ d ≠ '[' ∧ isAlphanumeric d = false) : c ≠ d := by
  rintro rfl
  rcases h with h | h | h | h
  · exact hd.1 h
  · exact hd.2.1 h
  · exact hd.2.2.1 h
  · rw [hd.2.2.2] at h
    exact nomatch h

/-- In particular it is no blank. -/
theorem Opens.not_blank {c : Char} (h : Opens c) : isSpaceOrNewline c = false := by
  rw [isSpaceOrNewline, isSpace, beq_false_of_ne (h.ne (by decide)), beq_false_of_ne (h.ne (by decide)),
    beq_false_of_ne (h.ne (by decide)), beq_false_of_ne (h.ne (by decide))]
  rfl

/-- **The text is read as the same primary everywhere**, whatever is around it. -/
structure Enclosed (text : List Char) (found : Nat → Primary) : Prop where
  opens : ∃ c rest, text = c :: rest ∧ Opens c
  reads : ∀ {limit depth : Nat}, Grammar.Fits limit depth text → ∀ around o rest,
    Grammar.primary? limit (Grammar.inner limit depth) around ⟨o, text ++ rest⟩ =
      .ok (some (found o), ⟨o + byteLength text, rest⟩)
  unnamed : ∀ o, (found o).bareword? = none

/-- An output capture of any code that is read. -/
theorem enclosed_capture {code : String} {chunk : Chunk} (h : readChunk code = .ok chunk) :
    Enclosed (captureText code) (captureAt · code chunk) where
  opens := ⟨'(', _, rfl, .inl rfl⟩
  reads fits around o rest := by
    have size : (captureText code).length = code.toList.length + 3 := by simp [captureText]
    have enough := fits.limit
    have deep := fits.depth
    exact primary?_capture h (by omega) (by omega) around o rest
  unnamed _ := rfl

/-- A lambda of any code that is read. -/
theorem enclosed_lambda {code : String} {chunk : Chunk} (h : readChunk code = .ok chunk) :
    Enclosed (lambdaText code) (lambdaAt · code chunk) where
  opens := ⟨'{', _, rfl, .inr (.inl rfl)⟩
  reads fits around o rest := by
    have size : (lambdaText code).length = code.toList.length + 4 := by simp [lambdaText]
    have enough := fits.limit
    have deep := fits.depth
    exact primary?_lambda h (by omega) (by omega) around o rest
  unnamed _ := rfl

/-- A word: letters and digits. -/
structure Word (text : List Char) : Prop where
  nonempty : text ≠ []
  letters : ∀ c ∈ text, isAlphanumeric c = true

/-- A word starts with a letter or a digit. -/
theorem Word.starts {text : List Char} (h : Word text) :
    ∃ c rest, text = c :: rest ∧ isAlphanumeric c = true := by
  obtain ⟨nonempty, letters⟩ := h
  cases text with
  | nil => exact absurd rfl nonempty
  | cons c rest => exact ⟨c, rest, rfl, letters c List.mem_cons_self⟩

theorem Word.starts_append {text : List Char} (h : Word text) (cs : List Char) :
    ∃ c rest, text ++ cs = c :: rest ∧ isAlphanumeric c = true := by
  obtain ⟨c, rest, rfl, letter⟩ := h.starts
  exact ⟨c, rest ++ cs, rfl, letter⟩

/-- **What stands around a place**: words, and texts that are read the same everywhere. -/
inductive Filler : List Char → Prop
  | word {text : List Char} (h : Word text) : Filler text
  | enclosed {text : List Char} {found : Nat → Primary} (h : Enclosed text found) : Filler text

/-- What ends whatever is written before it. -/
def Surroundings.Separates (around : Surroundings) (tail : List Char) : Prop :=
  ∀ c ∈ tail.head?, c = ' ' ∨ c = ']' ∨ c = '}' ∨ c = ',' ∧ around.inBraced = true ∨
    c = '=' ∧ around.stopAtEq = true

namespace Surroundings.Separates

variable {around : Surroundings} {tail : List Char}

/-- What separates is a blank, a closing bracket or brace, a comma or an equals sign, or the end. -/
theorem head_ne (h : around.Separates tail) {d : Char}
    (hd : d ≠ ' ' ∧ d ≠ ']' ∧ d ≠ '}' ∧ d ≠ ',' ∧ d ≠ '=') : tail.head? ≠ some d := by
  intro same
  rcases h d same with rfl | rfl | rfl | ⟨rfl, -⟩ | ⟨rfl, -⟩
  · exact hd.1 rfl
  · exact hd.2.1 rfl
  · exact hd.2.2.1 rfl
  · exact hd.2.2.2.1 rfl
  · exact hd.2.2.2.2 rfl

/-- So a bareword ends there. -/
theorem not_bareword (h : around.Separates tail) :
    ∀ c ∈ tail.head?, Grammar.isBarewordChar around c = false := by
  intro c hc
  rcases h c hc with rfl | rfl | rfl | ⟨rfl, braced⟩ | ⟨rfl, target⟩
  · rfl
  · rfl
  · rfl
  · rw [Grammar.isBarewordChar, if_neg (by decide), if_pos rfl, braced]
    rfl
  · rw [Grammar.isBarewordChar, if_pos rfl, target]
    rfl

end Surroundings.Separates

namespace Grammar

variable {limit depth total : Nat} {i : Inner} {around : Surroundings} {text tail cs mid : List Char}

/-! ## Primaries and compounds -/

/-- Letters and digits are part of barewords everywhere. -/
theorem isBarewordChar_of_letter {c : Char} (h : isAlphanumeric c = true) :
    isBarewordChar around c = true := by
  have opens : Opens c := .inr (.inr (.inr h))
  rw [isBarewordChar, if_neg (opens.ne (by decide)), if_neg (opens.ne (by decide)), h, Bool.or_true]

/-- There is nothing where something was ended. -/
theorem leadsIn_primary?_end (ends : around.Separates tail) :
    LeadsIn total (primary? limit i around) tail tail (· = none) := by
  have nothing : LeadsIn total (bareword? around) tail tail (· = none) := by
    have none : LeadsIn total (munch (isBarewordChar around) : Reader _) ([] ++ tail) tail (· = []) :=
      leadsIn_munch nofun ends.not_bareword
    exact leadsIn_offset fun start => leadsIn_known none (leadsIn_pure rfl)
  refine leadsIn_offset fun start => leadsIn_peek ?_
  cases tail with
  | nil => exact leadsIn_pure rfl
  | cons c rest =>
    rcases ends c rfl with rfl | rfl | rfl | ⟨rfl, -⟩ | ⟨rfl, -⟩ <;> exact nothing

/-- A word is read as a bareword. -/
theorem leadsIn_primary?_word (word : Word text)
    (stops : ∀ c ∈ tail.head?, isBarewordChar around c = false) :
    LeadsIn total (primary? limit i around) (text ++ tail) tail
      fun p => ∃ span, p = some (.bareword (String.ofList text) span) := by
  have bareword : LeadsIn total (bareword? around) (text ++ tail) tail
      fun p => ∃ span, p = some (.bareword (String.ofList text) span) := by
    refine leadsIn_offset fun start => leadsIn_known
      (leadsIn_munch (fun c hc => isBarewordChar_of_letter (word.letters c hc)) stops) ?_
    rw [if_neg (by simpa using word.nonempty)]
    exact leadsIn_span fun span => leadsIn_pure ⟨span, rfl⟩
  refine leadsIn_offset fun start => leadsIn_peek ?_
  obtain ⟨nonempty, letters⟩ := word
  cases text with
  | nil => exact absurd rfl nonempty
  | cons c rest =>
    have letter := letters c List.mem_cons_self
    have opens {d : Char} (h : some c = some d) : isAlphanumeric d = true := Option.some.inj h ▸ letter
    -- a letter opens no other primary
    dsimp only [List.cons_append, List.head?_cons]
    split
    · next heq => exact nomatch heq
    · next heq => exact absurd (opens heq) (by decide)
    · next heq => exact absurd (opens heq) (by decide)
    · next heq => exact absurd (opens heq) (by decide)
    · next heq => exact absurd (opens heq) (by decide)
    · next heq => exact absurd (opens heq) (by decide)
    · next heq => exact absurd (opens heq) (by decide)
    · exact bareword

/-- A text that is enclosed is read as its primary. -/
theorem leadsIn_primary?_enclosed {found : Nat → Primary} (h : Enclosed text found)
    (fits : Fits limit depth text) :
    LeadsIn total (primary? limit (inner limit depth) around) (text ++ tail) tail
      fun p => ∃ o, p = some (found o) ∧ o + byteLength (text ++ tail) = total := by
  intro o ho
  refine ⟨_, _, h.reads fits around o tail, ?_, o, rfl, ho⟩
  rw [Nat.add_assoc, ← byteLength_append, ho]

/-- A filler is one or the other. -/
theorem leadsIn_primary?_filler (h : Filler text) (fits : Fits limit depth text)
    (stops : ∀ c ∈ tail.head?, isBarewordChar around c = false) :
    LeadsIn total (primary? limit (inner limit depth) around) (text ++ tail) tail
      fun p => ∃ q, p = some q ∧ q.bareword? ≠ some "=" := by
  cases h with
  | word word =>
    refine (leadsIn_primary?_word word stops).mono fun p hp => ?_
    obtain ⟨span, rfl⟩ := hp
    refine ⟨_, rfl, fun same => ?_⟩
    have text' : text = ['='] := by
      rw [← String.toList_ofList (l := text), Option.some.inj same]
      rfl
    exact absurd (word.letters '=' (text' ▸ List.mem_cons_self)) (by decide)
  | enclosed h =>
    refine (leadsIn_primary?_enclosed h fits).mono fun p hp => ?_
    obtain ⟨o, rfl, -⟩ := hp
    exact ⟨_, rfl, by rw [h.unnamed]; exact nofun⟩

/-- One round of the brackets after a primary. -/
def nextBracket (limit : Nat) (i : Inner) : Reader (Round Bracket) := do
  if (← peek?) == some '[' then return .more (← bracket limit i) else return .stop

/-- A primary with as many indices as there are brackets after it. -/
theorem leadsIn_indexing? {P : Primary → Prop} {R : List Bracket → Prop} {n : Nat} (enough : n < limit)
    (head : LeadsIn total (primary? limit i around) cs mid fun p => ∃ q, p = some q ∧ P q)
    (brackets : Collects total (nextBracket limit i) n mid tail R) :
    LeadsIn total (indexing? limit i around) cs tail fun found =>
      ∃ head brackets span, found = some ⟨head, brackets, span⟩ ∧ P head ∧ R brackets := by
  refine leadsIn_offset fun start => leadsIn_bind head fun p hp => ?_
  obtain ⟨q, rfl, hq⟩ := hp
  refine leadsIn_bind (leadsIn_repeated brackets enough) fun found hr => ?_
  exact leadsIn_span fun span => leadsIn_pure ⟨q, found, span, rfl, hq, hr⟩

/-- No brackets. -/
theorem collects_nextBracket_end {n : Nat} (h : tail.head? ≠ some '[') :
    Collects total (nextBracket limit i) n tail tail (· = []) := by
  refine collects_stop (leadsIn_peek ?_) rfl
  rw [if_neg (by simpa using h)]
  exact leadsIn_pure rfl

/-- One indexing is a compound, where it is ended. -/
theorem leadsIn_compound {P : Indexing → Prop} (enough : 1 < limit)
    (indexing : LeadsIn total (indexing? limit i around) cs tail fun found =>
      ∃ i, found = some i ∧ P i) (ends : around.Separates tail) :
    LeadsIn total (compound limit i around) cs tail fun c => ∃ i span, c = ⟨[i], span⟩ ∧ P i := by
  have nothing : LeadsIn total (indexing? limit i around) tail tail (· = none) :=
    leadsIn_offset fun _ => leadsIn_known (leadsIn_primary?_end ends) (leadsIn_pure rfl)
  refine leadsIn_offset fun start => leadsIn_bind (leadsIn_repeated
    (R := fun found => ∃ i, found = [i] ∧ P i) (collects_more (P := P) (n := 0)
      (leadsIn_bind indexing ?_) fun i hi => collects_stop (leadsIn_known nothing (leadsIn_pure rfl))
        ⟨i, rfl, hi⟩) enough) fun found hfound => ?_
  · rintro _ ⟨i, rfl, hi⟩
    exact leadsIn_pure ⟨i, rfl, hi⟩
  · obtain ⟨i, rfl, hi⟩ := hfound
    exact leadsIn_span fun span => leadsIn_pure ⟨i, span, rfl, hi⟩

/-- A primary on its own. -/
theorem leadsIn_compound_primary {P : Primary → Prop} (enough : 1 < limit)
    (head : LeadsIn total (primary? limit i around) cs tail fun p => ∃ q, p = some q ∧ P q)
    (ends : around.Separates tail) :
    LeadsIn total (compound limit i around) cs tail (Compound.IsOne P) := by
  have indexing := leadsIn_indexing? (Nat.lt_of_succ_lt enough) head
    (collects_nextBracket_end (ends.head_ne (by decide)))
  refine (leadsIn_compound (P := fun i => ∃ head span, i = ⟨head, [], span⟩ ∧ P head) enough
    (indexing.mono fun found hfound => ?_) ends).mono fun c hc => ?_
  · obtain ⟨head, _, span, rfl, hp, rfl⟩ := hfound
    exact ⟨_, rfl, head, span, rfl, hp⟩
  · obtain ⟨_, span', rfl, head, span, rfl, hp⟩ := hc
    exact ⟨head, span, span', rfl, hp⟩

end Grammar

/-! ## What stands in a place -/

/-- A compound that is one indexing, and not the sign of an assignment. -/
structure Compound.Ordinary (c : Compound) : Prop where
  single : ∃ i, c.indexings = [i]
  sign : c.bareword? ≠ some "="

/-- **The text is read as one compound**, where it is ended.  What is found has the property, which may depend on
the number of bytes of the whole text and on what comes after this one. -/
structure Standing (text : List Char) (P : Nat → List Char → Compound → Prop) : Prop where
  opens : ∃ c rest, text = c :: rest ∧ Opens c
  leads : ∀ {limit depth : Nat}, Grammar.Fits limit depth text → ∀ {around : Surroundings}
    {tail : List Char}, around.Separates tail → ∀ total,
      LeadsIn total (Grammar.compound limit (Grammar.inner limit depth) around) (text ++ tail) tail
        fun c => c.Ordinary ∧ P total tail c

/-- The primary that is found `total` bytes before the end of a text of which `rest` is left, is inside the node. -/
def Holds (found : Nat → Primary) (total : Nat) (rest : List Char) (n : Node) : Prop :=
  ∃ o, o + byteLength rest = total ∧ (Node.primary (found o)).Inside n

/-- What is inside of a child is inside of the node. -/
theorem Holds.up {found : Nat → Primary} {total : Nat} {rest : List Char} {m n : Node}
    (h : Holds found total rest m) (child : m ∈ n.children) : Holds found total rest n := by
  obtain ⟨o, ho, inside⟩ := h
  exact ⟨o, ho, .child child inside⟩

namespace Standing

variable {text : List Char} {P : Nat → List Char → Compound → Prop}

/-- There is something to read. -/
theorem length_pos (h : Standing text P) : 0 < text.length := by
  obtain ⟨c, rest, rfl, -⟩ := h.opens
  exact Nat.zero_lt_succ _

/-- A primary on its own. -/
theorem of_primary {Q : Nat → List Char → Primary → Prop}
    (opens : ∃ c rest, text = c :: rest ∧ Opens c)
    (leads : ∀ {limit depth : Nat}, Grammar.Fits limit depth text → ∀ {around : Surroundings}
      {tail : List Char}, around.Separates tail → ∀ total,
        LeadsIn total (Grammar.primary? limit (Grammar.inner limit depth) around) (text ++ tail) tail
          fun p => ∃ q, p = some q ∧ q.bareword? ≠ some "=" ∧ Q total tail q)
    (lift : ∀ {total tail q} span span', Q total tail q → P total tail ⟨[⟨q, [], span⟩], span'⟩) :
    Standing text P where
  opens := opens
  leads fits around tail ends total := by
    obtain ⟨c, rest, rfl, -⟩ := opens
    have enough : 1 < _ := Nat.lt_of_le_of_lt (Nat.succ_le_succ (Nat.zero_le _)) fits.limit
    refine (Grammar.leadsIn_compound_primary enough (leads fits ends total) ends).mono fun c hc => ?_
    obtain ⟨q, span, span', rfl, sign, hq⟩ := hc
    exact ⟨⟨⟨_, rfl⟩, sign⟩, lift span span' hq⟩

end Standing

theorem Filler.opens {text : List Char} (h : Filler text) : ∃ c rest, text = c :: rest ∧ Opens c := by
  cases h with
  | word word =>
    obtain ⟨c, rest, rfl, letter⟩ := word.starts
    exact ⟨c, rest, rfl, .inr (.inr (.inr letter))⟩
  | enclosed h => exact h.opens

/-- A filler stands wherever it may. -/
theorem Filler.standing {text : List Char} (h : Filler text) : Standing text fun _ _ _ => True :=
  .of_primary (Q := fun _ _ _ => True) h.opens
    (fun fits _ _ ends _ => (Grammar.leadsIn_primary?_filler h fits ends.not_bareword).mono
      fun _ ⟨q, same, sign⟩ => ⟨q, same, sign, trivial⟩)
    fun _ _ _ => trivial

/-- And so does an enclosed text, of which the primary is known. -/
theorem Enclosed.standing {text : List Char} {found : Nat → Primary} (h : Enclosed text found) :
    Standing text fun total tail c => Holds found total (text ++ tail) (.compound c) := by
  refine .of_primary (Q := fun total tail q => ∃ o, q = found o ∧ o + byteLength (text ++ tail) = total)
    h.opens (fun fits _ _ _ total => (Grammar.leadsIn_primary?_enclosed h fits).mono
      fun p hp => ?_) fun span span' hq => ?_
  · obtain ⟨o, rfl, ho⟩ := hp
    exact ⟨_, rfl, by rw [h.unnamed]; exact nofun, o, rfl, ho⟩
  · obtain ⟨o, rfl, ho⟩ := hq
    exact ⟨o, ho, .child List.mem_cons_self (.child List.mem_cons_self .self)⟩

/-! ## Rows -/

/-- Texts with a separator after each. -/
def withAfter (sep : Char) (texts : List (List Char)) : List Char := (texts.map (· ++ [sep])).flatten

/-- Texts with a separator before each. -/
def withBefore (sep : Char) (texts : List (List Char)) : List Char := (texts.map (sep :: ·)).flatten

/-- The parts of a row are not longer than it, and not more than it has characters. -/
theorem length_le_flatten {f : List Char → List Char} (hf : ∀ t, (f t).length = t.length + 1)
    (texts : List (List Char)) : texts.length ≤ (texts.map f).flatten.length ∧
      ∀ t ∈ texts, t.length < (texts.map f).flatten.length := by
  induction texts with
  | nil => exact ⟨Nat.le_refl _, nofun⟩
  | cons t texts ih =>
    obtain ⟨count, parts⟩ := ih
    simp only [List.map_cons, List.flatten_cons, List.length_append, List.length_cons, hf,
      List.mem_cons, forall_eq_or_imp]
    exact ⟨by omega, by omega, fun u hu => by have := parts u hu; omega⟩

/-- Texts that are joined are not longer than the whole. -/
theorem length_withAfter (sep : Char) (texts : List (List Char)) :
    texts.length ≤ (withAfter sep texts).length ∧ ∀ t ∈ texts, t.length < (withAfter sep texts).length :=
  length_le_flatten (fun _ => List.length_append) texts

theorem length_withBefore (sep : Char) (texts : List (List Char)) :
    texts.length ≤ (withBefore sep texts).length ∧
      ∀ t ∈ texts, t.length < (withBefore sep texts).length :=
  length_le_flatten (fun _ => rfl) texts

section Rows

variable {α : Type} {round : Reader (Round α)} {total n : Nat} {cs cs' text closing tail : List Char}
  {left right : List (List Char)} {R : List α → Prop} {Q : List Char → α → Prop}

/-- A blank in front changes nothing where blanks are skipped. -/
theorem collects_space (skips : ∀ o cs, round ⟨o, ' ' :: cs⟩ = round ⟨o + 1, cs⟩)
    (h : Collects total round n cs cs' R) : Collects total round n (' ' :: cs) cs' R := by
  intro limit found enough o ho
  obtain ⟨a, o', run, later⟩ := h limit found enough (o + 1) ((Nat.add_assoc _ _ _).trans ho)
  exact ⟨a, o', (repeatedOnto_congr (skips o cs) limit found).trans run, later⟩

/-- What follows in a row. -/
theorem separates_row (right : List (List Char)) (ends : Surroundings.plain.Separates closing) :
    Surroundings.plain.Separates (withBefore ' ' right ++ closing) := by
  cases right with
  | nil => exact ends
  | cons t ts =>
    rintro c ⟨⟩
    exact .inl rfl

/-- **A row**: what is found at one place is among what is found. -/
theorem collects_row (skips : ∀ o cs, round ⟨o, ' ' :: cs⟩ = round ⟨o + 1, cs⟩)
    (filler : ∀ t ∈ left ++ right, ∀ tail, Surroundings.plain.Separates tail →
      LeadsIn total round (t ++ tail) tail fun r => ∃ a, r = .more a)
    (item : ∀ tail, Surroundings.plain.Separates tail →
      LeadsIn total round (text ++ tail) tail fun r => ∃ a, r = .more a ∧ Q tail a)
    (ends : Surroundings.plain.Separates closing)
    (stop : LeadsIn total round closing tail (· = .stop)) :
    Collects total round (right.length + 1 + left.length)
      (withAfter ' ' left ++ (text ++ (withBefore ' ' right ++ closing))) tail
      fun as => ∃ a ∈ as, Q (withBefore ' ' right ++ closing) a := by
  have after : ∀ right' ⊆ right, Collects total round right'.length
      (withBefore ' ' right' ++ closing) tail fun _ => True := by
    intro right' sub
    induction right' with
    | nil => exact collects_stop stop trivial
    | cons t ts ih =>
      obtain ⟨ht, hts⟩ := List.cons_subset.mp sub
      have split : withBefore ' ' (t :: ts) ++ closing =
          ' ' :: (t ++ (withBefore ' ' ts ++ closing)) := by simp [withBefore]
      rw [split]
      exact collects_space skips (collects_more (P := fun _ => True)
        ((filler t (List.mem_append_right _ ht) _ (separates_row ts ends)).mono
          fun _ ⟨a, same⟩ => ⟨a, same, trivial⟩) fun _ _ => ih hts)
  have here : Collects total round (right.length + 1) (text ++ (withBefore ' ' right ++ closing)) tail
      fun as => ∃ a ∈ as, Q (withBefore ' ' right ++ closing) a :=
    collects_more (item _ (separates_row right ends)) fun a ha =>
      (after right fun _ h => h).mono fun _ _ => ⟨a, List.mem_cons_self, ha⟩
  have before := collects_before (left.map (· ++ [' '])) (fun t' ht' n cs later => ?_) here
  · rw [List.length_map] at before
    exact before
  · obtain ⟨t, ht, rfl⟩ := List.mem_map.mp ht'
    rw [List.append_assoc]
    refine collects_more (P := fun _ => True) ((filler t (List.mem_append_left _ ht) (' ' :: cs)
      (by rintro c ⟨⟩; exact .inl rfl)).mono fun _ ⟨a, same⟩ => ⟨a, same, trivial⟩) fun a _ =>
        (collects_space skips later).mono fun as ⟨b, hb, hq⟩ => ⟨b, List.mem_cons_of_mem _ hb, hq⟩

/-- What a closing bracket ends. -/
theorem separates_bracket (tail : List Char) : Surroundings.plain.Separates (']' :: tail) := by
  rintro c ⟨⟩
  exact .inr (.inl rfl)

end Rows

namespace Grammar

variable {limit depth total start : Nat} {i : Inner} {around : Surroundings}
  {text tail cs whole : List Char} {left right : List (List Char)}
  {P : Nat → List Char → Compound → Prop} {what : Construct}

/-! ## Bounds -/

/-- What fits has room for a shorter text, -/
theorem Fits.shorter (h : Fits limit depth whole) (size : text.length ≤ whole.length) :
    Fits limit depth text :=
  ⟨Nat.lt_of_le_of_lt size h.limit, Nat.le_trans size h.depth⟩

/-- and more room one level deeper. -/
theorem Fits.succ (h : Fits limit depth text) : Fits limit (depth + 1) text :=
  ⟨h.limit, Nat.le_succ_of_le h.depth⟩

/-- A part of a text needs one level less than the whole. -/
theorem Fits.part (h : Fits limit (depth + 1) whole) (size : text.length < whole.length) :
    Fits limit depth text := by
  obtain ⟨hl, hd⟩ := h
  exact ⟨by omega, by omega⟩

/-- What is written in a row, within delimiters, fits one level below. -/
structure RowFits (limit depth : Nat) (left : List (List Char)) (text : List Char)
    (right : List (List Char)) : Prop where
  enough : right.length + 1 + left.length < limit
  item : Fits limit depth text
  fillers : ∀ t ∈ left ++ right, Fits limit depth t

/-- A text in a row fits if the row does. -/
theorem Fits.row (h : Fits limit depth whole) (sep : Char) (left right : List (List Char)) (nonempty : 0 < text.length)
    (size : (withAfter sep left).length + text.length + (withBefore sep right).length < whole.length) :
    ∃ below, depth = below + 1 ∧ RowFits limit below left text right := by
  obtain ⟨below, rfl⟩ : ∃ below, depth = below + 1 :=
    Nat.exists_eq_succ_of_ne_zero (by have := h.depth; omega)
  obtain ⟨countLeft, lefts⟩ := length_withAfter sep left
  obtain ⟨countRight, rights⟩ := length_withBefore sep right
  have room := h.limit
  refine ⟨below, rfl, by omega, h.part (by omega), fun t ht => h.part ?_⟩
  rcases List.mem_append.mp ht with ht | ht
  · have := lefts t ht
    omega
  · have := rights t ht
    omega

/-! ## Items -/

/-- One round of the compounds in brackets. -/
def nextItem (i : Inner) (closer : Char) (what : Construct) (start : Nat) :
    Reader (Round Compound) := do
  skipBlank
  match ← peek? with
  | none => failFrom start (.unterminated what)
  | some c => do
    if c = closer then do
      advance
      return .stop
    else do
      let item ← i.compound .plain
      if item.indexings.isEmpty then unexpected else return .more item

/-- The items of a list, round by round. -/
theorem items_eq (closer : Char) : items limit i closer what = (do
    let start := (← offset) - 1
    repeated limit (nextItem i closer what start)) := rfl

/-- One round reads the text as an item. -/
theorem leadsIn_nextItem (standing : Standing text P) (fits : Fits limit depth text)
    (ends : Surroundings.plain.Separates tail) :
    LeadsIn total (nextItem (inner limit (depth + 1)) ']' what start) (text ++ tail) tail
      fun r => ∃ c, r = .more c ∧ P total tail c := by
  have item := standing.leads fits ends total
  obtain ⟨c, rest, rfl, opens⟩ := standing.opens
  refine leadsIn_skipBlank opens.not_blank (opens.ne (by decide)) (leadsIn_peek ?_)
  dsimp only [List.cons_append, List.head?_cons]
  rw [if_neg (opens.ne (by decide))]
  refine leadsIn_bind item fun found hfound => ?_
  obtain ⟨⟨⟨i, single⟩, -⟩, hp⟩ := hfound
  rw [single]
  exact leadsIn_pure ⟨found, rfl, hp⟩

/-- And the rounds read the row, with the text at its place. -/
theorem leadsIn_items (standing : Standing text P) (fillers : ∀ t ∈ left ++ right, Filler t)
    (fits : RowFits limit depth left text right) (tail : List Char) :
    LeadsIn total (items limit (inner limit (depth + 1)) ']' what)
      (withAfter ' ' left ++ (text ++ (withBefore ' ' right ++ ']' :: tail))) tail
      fun cs => ∃ c ∈ cs, P total (withBefore ' ' right ++ ']' :: tail) c := by
  rw [items_eq]
  refine leadsIn_offset fun start => leadsIn_repeated (collects_row (fun _ _ => rfl) (fun t ht tail ends =>
    (leadsIn_nextItem (fillers t ht).standing (fits.fillers t ht) ends).mono
      fun _ ⟨c, same, _⟩ => ⟨c, same⟩) (fun tail ends => leadsIn_nextItem standing fits.item ends)
        (separates_bracket tail) ?_) fits.enough
  exact leadsIn_skipBlank (by decide) (by decide) (leadsIn_peek (leadsIn_advance (leadsIn_pure rfl)))

/-! ## Items between braces -/

/-- One round of the compounds in braces. -/
def nextBraced (i : Inner) (start : Nat) : Reader (Round Compound) := do
  skipBlank
  let item ← i.compound .braced
  skipBlank
  match ← peek? with
  | some ',' => do
    advance
    return .more item
  | some '}' => do
    advance
    return .last item
  | none => failFrom start (.unterminated .bracedList)
  | some _ => unexpected

/-- The items between braces, round by round. -/
theorem bracedItems_eq : bracedItems limit i = (do
    let start ← offset
    advance
    repeated limit (nextBraced i start)) := rfl

/-- Up to what follows an item. -/
theorem leadsIn_nextBraced {c : Char} {after : List Char} {R : Round Compound → Prop}
    (standing : Standing text P) (fits : Fits limit depth text) (hc : c = ',' ∨ c = '}')
    (next : ∀ item, P total (c :: tail) item → LeadsIn total (match some c with
      | some ',' => do
        advance
        return .more item
      | some '}' => do
        advance
        return .last item
      | none => failFrom start (.unterminated .bracedList)
      | some _ => unexpected : Reader (Round Compound)) (c :: tail) after R) :
    LeadsIn total (nextBraced (inner limit (depth + 1)) start) (text ++ c :: tail) after R := by
  have ends : Surroundings.braced.Separates (c :: tail) := by
    rintro _ ⟨⟩
    rcases hc with rfl | rfl
    · exact .inr (.inr (.inr (.inl ⟨rfl, rfl⟩)))
    · exact .inr (.inr (.inl rfl))
  have item := standing.leads fits ends total
  have visible : isSpaceOrNewline c = false ∧ c ≠ '#' := by
    rcases hc with rfl | rfl <;> decide
  obtain ⟨c', rest, rfl, opens⟩ := standing.opens
  refine leadsIn_skipBlank opens.not_blank (opens.ne (by decide)) (leadsIn_bind item fun found hfound => ?_)
  exact leadsIn_skipBlank visible.1 visible.2 (leadsIn_peek (next found hfound.2))

/-- The rounds read the row. -/
theorem leadsIn_bracedItems (standing : Standing text P) (fillers : ∀ t ∈ left ++ right, Filler t)
    (fits : RowFits limit depth left text right) (tail : List Char) :
    LeadsIn total (bracedItems limit (inner limit (depth + 1)))
      ('{' :: (withAfter ',' left ++ (text ++ (withBefore ',' right ++ '}' :: tail)))) tail
      fun cs => ∃ c ∈ cs, P total (withBefore ',' right ++ '}' :: tail) c := by
  rw [bracedItems_eq]
  refine leadsIn_offset fun start => leadsIn_advance (leadsIn_repeated ?_ fits.enough)
  -- any item, with the ones after it
  have onward : ∀ {text P} (_ : Standing text P) (_ : Fits limit depth text), ∀ right' ⊆ right,
      Collects total (nextBraced (inner limit (depth + 1)) start) (right'.length + 1)
        (text ++ (withBefore ',' right' ++ '}' :: tail)) tail
        fun cs => ∃ c ∈ cs, P total (withBefore ',' right' ++ '}' :: tail) c := by
    intro text P standing fits' right' sub
    induction right' generalizing text P with
    | nil =>
      exact collects_last (leadsIn_nextBraced standing fits' (.inr rfl) fun item hp =>
        leadsIn_advance (leadsIn_pure ⟨item, rfl, item, List.mem_cons_self, hp⟩))
    | cons t ts ih =>
      obtain ⟨ht, hts⟩ := List.cons_subset.mp sub
      have mem := List.mem_append_right left ht
      have split : withBefore ',' (t :: ts) ++ '}' :: tail =
          ',' :: (t ++ (withBefore ',' ts ++ '}' :: tail)) := by simp [withBefore]
      rw [split]
      exact collects_more (leadsIn_nextBraced standing fits' (.inl rfl) fun item hp =>
        leadsIn_advance (leadsIn_pure ⟨item, rfl, hp⟩)) fun item hp =>
          (ih (fillers t mem).standing (fits.fillers t mem) hts).mono
            fun _ _ => ⟨item, List.mem_cons_self, hp⟩
  have before := collects_before (left.map (· ++ [','])) (fun t' ht' n cs later => ?_)
    (onward standing fits.item right fun _ h => h)
  · rw [List.length_map] at before
    exact before
  · obtain ⟨t, ht, rfl⟩ := List.mem_map.mp ht'
    have mem := List.mem_append_left right ht
    rw [List.append_assoc]
    exact collects_more (P := fun _ => True) (leadsIn_nextBraced (fillers t mem).standing
      (fits.fillers t mem) (.inl rfl) fun item _ => leadsIn_advance (leadsIn_pure ⟨item, rfl, trivial⟩))
        fun a _ => later.mono fun as ⟨b, hb, hq⟩ => ⟨b, List.mem_cons_of_mem _ hb, hq⟩

/-! ## Pairs -/

/-- The text of a pair of a map. -/
def pairText (pair : List Char × List Char) : List Char := '&' :: (pair.1 ++ '=' :: pair.2)

/-- One round of the pairs of a map. -/
def nextPair (i : Inner) (start : Nat) : Reader (Round MapPair) := do
  skipBlank
  match ← peek? with
  | none => failFrom start (.unterminated .map)
  | some ']' => do
    advance
    return .stop
  | some '&' => do
    let pairStart ← offset
    advance
    if (← peek?) == some ']' then do
      advance
      return .stop
    else do
      let key ← i.compound .target
      if key.indexings.isEmpty || (← peek?) != some '=' then failFrom pairStart .badMapPair
      else do
        advance
        let value ← i.compound .plain
        return .more ⟨key, value, ← spanFrom pairStart⟩
  | some _ => unexpected

/-- The pairs of a map, round by round. -/
theorem mapPairs_eq : mapPairs limit i start = repeated limit (nextPair i start) := rfl

/-- One round reads a key and a value. -/
theorem leadsIn_nextPair {key value : List Char} {Q : Nat → List Char → Compound → Prop}
    (keyStands : Standing key P) (valueStands : Standing value Q) (keyFits : Fits limit depth key)
    (valueFits : Fits limit depth value) (ends : Surroundings.plain.Separates tail) :
    LeadsIn total (nextPair (inner limit (depth + 1)) start) (pairText (key, value) ++ tail) tail
      fun r => ∃ pair, r = .more pair ∧ P total ('=' :: (value ++ tail)) pair.key ∧
        Q total tail pair.value := by
  have sign : Surroundings.target.Separates ('=' :: (value ++ tail)) := by
    rintro _ ⟨⟩
    exact .inr (.inr (.inr (.inr ⟨rfl, rfl⟩)))
  have first := keyStands.leads keyFits sign total
  have second := valueStands.leads valueFits ends total
  obtain ⟨c, rest, rfl, opens⟩ := keyStands.opens
  have text : pairText (c :: rest, value) ++ tail = '&' :: (c :: rest ++ '=' :: (value ++ tail)) := by
    simp [pairText]
  rw [text]
  refine leadsIn_skipBlank (by decide) (by decide) (leadsIn_peek (leadsIn_offset fun pairStart =>
    leadsIn_advance (leadsIn_peek ?_)))
  rw [if_neg (by simpa using opens.ne (by decide))]
  refine leadsIn_bind first fun found hfound => leadsIn_peek ?_
  obtain ⟨⟨⟨i, single⟩, -⟩, hp⟩ := hfound
  rw [single]
  refine leadsIn_advance (leadsIn_bind second fun found' hfound' => ?_)
  exact leadsIn_span fun span => leadsIn_pure ⟨⟨found, found', span⟩, rfl, hp, hfound'.2⟩

end Grammar

/-! ## Places inside brackets and braces -/

/-- **The texts before and after a place** inside any number of brackets and braces. -/
inductive Within : List Char → List Char → Prop
  | here : Within [] []
  /-- `[a HERE b]` -/
  | listItem {before after : List Char} {left right : List (List Char)}
      (fillers : ∀ t ∈ left ++ right, Filler t) (h : Within before after) :
      Within ('[' :: (withAfter ' ' left ++ before)) (after ++ (withBefore ' ' right ++ [']']))
  /-- `{a,HERE,b}` -/
  | bracedItem {before after : List Char} {left right : List (List Char)}
      (fillers : ∀ t ∈ left ++ right, Filler t) (h : Within before after) :
      Within ('{' :: (withAfter ',' left ++ before)) (after ++ (withBefore ',' right ++ ['}']))
  /-- `[&a=b &HERE=c &d=e]` -/
  | mapKey {before after value : List Char} {left right : List (List Char × List Char)}
      (fillers : ∀ pair ∈ left ++ right, Filler pair.1 ∧ Filler pair.2) (filler : Filler value)
      (h : Within before after) :
      Within ('[' :: (withAfter ' ' (left.map Grammar.pairText) ++ '&' :: before))
        (after ++ '=' :: (value ++ (withBefore ' ' (right.map Grammar.pairText) ++ [']'])))
  /-- `[&a=b &c=HERE &d=e]` -/
  | mapValue {before after key : List Char} {left right : List (List Char × List Char)}
      (fillers : ∀ pair ∈ left ++ right, Filler pair.1 ∧ Filler pair.2) (filler : Filler key)
      (h : Within before after) :
      Within ('[' :: (withAfter ' ' (left.map Grammar.pairText) ++ '&' :: (key ++ '=' :: before)))
        (after ++ (withBefore ' ' (right.map Grammar.pairText) ++ [']']))
  /-- `x[a HERE b]` -/
  | index {head before after : List Char} {left right : List (List Char)} (filler : Filler head)
      (fillers : ∀ t ∈ left ++ right, Filler t) (h : Within before after) :
      Within (head ++ '[' :: (withAfter ' ' left ++ before)) (after ++ (withBefore ' ' right ++ [']']))

namespace Standing

open Grammar

variable {found : Nat → Primary} {limit depth total : Nat} {around : Surroundings}
  {text tail rest : List Char} {left right : List (List Char)} {P : Nat → List Char → Compound → Prop}

/-- A text in which a hole is filled: what is found there is inside. -/
def Filled (found : Nat → Primary) (text rest : List Char) : Prop :=
  Standing text fun total tail c => Holds found total (rest ++ tail) (.compound c)

/-- What starts with a fixed character. -/
theorem filled_of_primary {c : Char} {body : List Char} (opens : Opens c)
    (leads : ∀ {limit depth : Nat}, Fits limit depth (c :: body) → ∀ {around : Surroundings}
      {tail : List Char}, around.Separates tail → ∀ total,
        LeadsIn total (primary? limit (inner limit depth) around) (c :: body ++ tail) tail
          fun p => ∃ q, p = some q ∧ q.bareword? = none ∧ Holds found total (rest ++ tail) (.primary q)) :
    Filled found (c :: body) rest :=
  .of_primary (Q := fun total tail q => Holds found total (rest ++ tail) (.primary q))
    ⟨c, body, rfl, opens⟩ (fun fits _ _ ends total => (leads fits ends total).mono
      fun _ ⟨q, same, unnamed, hq⟩ => ⟨q, same, by rw [unnamed]; exact nofun, hq⟩)
    fun span _ hq => (hq.up (n := .indexing ⟨_, [], span⟩) List.mem_cons_self).up List.mem_cons_self

/-- The first character of a row. -/
theorem row_opens (sep : Char) (standing : Standing text P) (fillers : ∀ t ∈ left ++ right, Filler t)
    (tail : List Char) : ∃ c rest, withAfter sep left ++ (text ++ tail) = c :: rest ∧ Opens c := by
  cases left with
  | nil =>
    obtain ⟨c, rest, rfl, opens⟩ := standing.opens
    exact ⟨c, rest ++ tail, rfl, opens⟩
  | cons t ts =>
    obtain ⟨c, rest, rfl, opens⟩ := (fillers t List.mem_cons_self).opens
    exact ⟨c, _, rfl, opens⟩

/-- Nothing is skipped before it. -/
theorem leadsIn_skipBlank_opens {α : Type} {k : PUnit → Reader α} {Q : α → Prop} {cs cs' : List Char}
    (opens : ∃ c rest, cs = c :: rest ∧ Opens c) (hk : LeadsIn total (k ⟨⟩) cs cs' Q) :
    LeadsIn total (skipBlank >>= k) cs cs' Q := by
  obtain ⟨c, rest, rfl, opens⟩ := opens
  exact leadsIn_skipBlank opens.not_blank (opens.ne (by decide)) hk

/-- What opens a filler is not mistaken for a sign. -/
theorem head_ne_of_opens {cs : List Char} (opens : ∃ c rest, cs = c :: rest ∧ Opens c) {d : Char}
    (hd : d ≠ '(' ∧ d ≠ '{' ∧ d ≠ '[' ∧ isAlphanumeric d = false) : cs.head? ≠ some d := by
  obtain ⟨c, rest, rfl, opens⟩ := opens
  exact fun same => opens.ne hd (Option.some.inj same)

/-- What starts with a bracket. -/
theorem filled_of_bracketed {body : List Char}
    (leads : ∀ {limit depth : Nat}, Fits limit depth ('[' :: body) → ∀ {tail : List Char},
      tail.head? ≠ some '{' → ∀ total start,
        LeadsIn total (bracketed limit (inner limit depth) start) ('[' :: body ++ tail) tail
          fun q => q.bareword? = none ∧ Holds found total (rest ++ tail) (.primary q)) :
    Filled found ('[' :: body) rest :=
  filled_of_primary (.inr (.inr (.inl rfl))) fun fits _ _ ends total =>
    leadsIn_offset fun start => leadsIn_peek (leadsIn_bind
      (leads fits (ends.head_ne (by decide)) total start) fun q ⟨unnamed, hq⟩ =>
        leadsIn_pure ⟨q, rfl, unnamed, hq⟩)

/-! ### One step outwards -/

/-- **As an item of a list.** -/
theorem filled_listItem (h : Filled found text rest) (fillers : ∀ t ∈ left ++ right, Filler t) :
    Filled found ('[' :: (withAfter ' ' left ++ (text ++ (withBefore ' ' right ++ [']']))))
      (rest ++ (withBefore ' ' right ++ [']'])) := by
  refine filled_of_bracketed fun fits tail next total start => ?_
  obtain ⟨below, rfl, rowFits⟩ := fits.row ' ' left right h.length_pos
    (by simp only [List.length_cons, List.length_append]; omega)
  have row : LeadsIn total (items _ _ ']' .list) _ tail _ := leadsIn_items h fillers rowFits tail
  have opens := row_opens ' ' h fillers (withBefore ' ' right ++ ']' :: tail)
  simp only [List.append_assoc, List.cons_append, List.nil_append] at row opens ⊢
  refine leadsIn_advance (leadsIn_skipBlank_opens opens (leadsIn_peek ?_))
  rw [if_neg (by simpa using head_ne_of_opens opens (by decide))]
  refine leadsIn_bind row fun cs hcs => leadsIn_peek ?_
  rw [if_neg (by simpa using next)]
  obtain ⟨c, hc, holds⟩ := hcs
  exact leadsIn_span fun span => leadsIn_pure ⟨rfl, holds.up (List.mem_map_of_mem hc)⟩

/-- **As an item between braces.** -/
theorem filled_bracedItem (h : Filled found text rest) (fillers : ∀ t ∈ left ++ right, Filler t) :
    Filled found ('{' :: (withAfter ',' left ++ (text ++ (withBefore ',' right ++ ['}']))))
      (rest ++ (withBefore ',' right ++ ['}'])) := by
  refine filled_of_primary (.inr (.inl rfl)) fun fits around tail ends total => ?_
  obtain ⟨below, rfl, rowFits⟩ := fits.row ',' left right h.length_pos
    (by simp only [List.length_cons, List.length_append]; omega)
  have row : LeadsIn total _ _ tail _ := leadsIn_bracedItems h fillers rowFits tail
  have opens := row_opens ',' h fillers (withBefore ',' right ++ '}' :: tail)
  simp only [List.append_assoc, List.cons_append, List.nil_append] at row opens ⊢
  -- what follows the brace is not blank, so this is no lambda
  have visible : ((withAfter ',' left ++ (text ++ (withBefore ',' right ++ '}' :: tail))).head?).any
      isSpaceOrNewline = false := by
    obtain ⟨c, later, same, opens⟩ := opens
    rw [same]
    exact opens.not_blank
  refine leadsIn_offset fun start => leadsIn_peek (leadsIn_second ?_)
  dsimp only [List.tail_cons]
  rw [visible]
  refine leadsIn_bind row fun cs hcs => ?_
  obtain ⟨c, hc, holds⟩ := hcs
  exact leadsIn_span fun span => leadsIn_pure ⟨_, rfl, rfl, holds.up (List.mem_map_of_mem hc)⟩

/-- A key and a value fit if their pair does. -/
theorem fits_pair {key value : List Char} (h : Fits limit depth (pairText (key, value))) :
    Fits limit depth key ∧ Fits limit depth value := by
  obtain ⟨enough, deep⟩ := h
  have size : (pairText (key, value)).length = key.length + value.length + 2 := by
    simp only [pairText, List.length_cons, List.length_append]
    omega
  rw [size] at enough deep
  exact ⟨⟨by omega, by omega⟩, ⟨by omega, by omega⟩⟩

/-- A pair of fillers is read as some pair. -/
theorem leadsIn_nextPair_filler {pair : List Char × List Char} {start : Nat}
    (fillers : Filler pair.1 ∧ Filler pair.2) (fits : Fits limit depth (pairText pair))
    (ends : Surroundings.plain.Separates tail) :
    LeadsIn total (nextPair (inner limit (depth + 1)) start) (pairText pair ++ tail) tail
      fun r => ∃ p, r = .more p := by
  obtain ⟨keyFits, valueFits⟩ := fits_pair fits
  exact (leadsIn_nextPair fillers.1.standing fillers.2.standing keyFits valueFits ends).mono
    fun _ ⟨p, same, _⟩ => ⟨p, same⟩

/-- A map, one pair of which is the one that is looked for. -/
theorem filled_map {pair : List Char} {left right : List (List Char × List Char)}
    (fillers : ∀ pair ∈ left ++ right, Filler pair.1 ∧ Filler pair.2) (opens : pair.head? = some '&')
    (reads : ∀ {limit depth : Nat}, Fits limit depth pair → ∀ {tail : List Char},
      Surroundings.plain.Separates tail → ∀ total start,
        LeadsIn total (nextPair (inner limit (depth + 1)) start) (pair ++ tail) tail
          fun r => ∃ p, r = .more p ∧ Holds found total (rest ++ tail) (.pair p)) :
    Filled found ('[' :: (withAfter ' ' (left.map pairText) ++ (pair ++
      (withBefore ' ' (right.map pairText) ++ [']']))))
      (rest ++ (withBefore ' ' (right.map pairText) ++ [']'])) := by
  refine filled_of_bracketed fun fits tail next total start => ?_
  have nonempty : 0 < pair.length := by
    cases pair with
    | nil => exact nomatch opens
    | cons c cs => exact Nat.zero_lt_succ _
  obtain ⟨below, rfl, rowFits⟩ := fits.row ' ' (left.map pairText) (right.map pairText) nonempty
    (by simp only [List.length_cons, List.length_append]; omega)
  have row : LeadsIn total _ _ tail _ := leadsIn_repeated (collects_row (fun _ _ => rfl)
    (fun t ht tail ends => by
      have room := rowFits.fillers t ht
      rw [← List.map_append] at ht
      obtain ⟨p, mem, rfl⟩ := List.mem_map.mp ht
      exact leadsIn_nextPair_filler (fillers p mem) room ends)
    (fun tail ends => reads rowFits.item ends total start) (separates_bracket tail)
    (leadsIn_skipBlank (by decide) (by decide) (leadsIn_peek (leadsIn_advance (leadsIn_pure rfl)))))
    rowFits.enough
  -- the row starts with the sign of a pair
  have sign : ∃ later, withAfter ' ' (left.map pairText) ++ (pair ++
      (withBefore ' ' (right.map pairText) ++ ']' :: tail)) = '&' :: later := by
    cases left with
    | nil =>
      cases pair with
      | nil => exact nomatch opens
      | cons c cs =>
        obtain rfl : c = '&' := Option.some.inj opens
        exact ⟨_, rfl⟩
    | cons p ps => exact ⟨_, rfl⟩
  obtain ⟨later, sign⟩ := sign
  simp only [List.append_assoc, List.cons_append, List.nil_append]
  rw [sign] at row ⊢
  refine leadsIn_advance (leadsIn_skipBlank (by decide) (by decide) (leadsIn_peek ?_))
  rw [if_pos (show (('&' :: later).head? == some '&') = true from rfl), mapPairs_eq]
  refine leadsIn_bind row fun pairs hpairs => ?_
  obtain ⟨p, hp, holds⟩ := hpairs
  exact leadsIn_span fun span => leadsIn_pure ⟨rfl, holds.up (List.mem_map_of_mem hp)⟩

/-- **As the key of a pair.** -/
theorem filled_mapKey {value : List Char} {left right : List (List Char × List Char)}
    (h : Filled found text rest) (fillers : ∀ pair ∈ left ++ right, Filler pair.1 ∧ Filler pair.2)
    (filler : Filler value) :
    Filled found ('[' :: (withAfter ' ' (left.map pairText) ++ (pairText (text, value) ++
      (withBefore ' ' (right.map pairText) ++ [']']))))
      (rest ++ '=' :: value ++ (withBefore ' ' (right.map pairText) ++ [']'])) := by
  refine filled_map fillers rfl fun fits tail ends total start => ?_
  obtain ⟨keyFits, valueFits⟩ := fits_pair fits
  refine (leadsIn_nextPair h filler.standing keyFits valueFits ends).mono fun _ hr => ?_
  obtain ⟨p, rfl, holds, -⟩ := hr
  refine ⟨p, rfl, ?_⟩
  rw [List.append_assoc]
  exact holds.up List.mem_cons_self

/-- **As the value of a pair.** -/
theorem filled_mapValue {key : List Char} {left right : List (List Char × List Char)}
    (h : Filled found text rest) (fillers : ∀ pair ∈ left ++ right, Filler pair.1 ∧ Filler pair.2)
    (filler : Filler key) :
    Filled found ('[' :: (withAfter ' ' (left.map pairText) ++ (pairText (key, text) ++
      (withBefore ' ' (right.map pairText) ++ [']']))))
      (rest ++ (withBefore ' ' (right.map pairText) ++ [']'])) := by
  refine filled_map fillers rfl fun fits tail ends total start => ?_
  obtain ⟨keyFits, valueFits⟩ := fits_pair fits
  refine (leadsIn_nextPair filler.standing h keyFits valueFits ends).mono fun _ hr => ?_
  obtain ⟨p, rfl, -, holds⟩ := hr
  exact ⟨p, rfl, holds.up (List.mem_cons_of_mem _ List.mem_cons_self)⟩

/-- A primary and a bracket after it. -/
theorem leadsIn_indexed {head : List Char} {Q : Primary → Prop} (h : Filled found text rest)
    (fillers : ∀ t ∈ left ++ right, Filler t) (fits : RowFits limit depth left text right)
    (next : tail.head? ≠ some '[')
    (reads : LeadsIn total (primary? limit (inner limit (depth + 1)) around)
      (head ++ '[' :: (withAfter ' ' left ++ (text ++ (withBefore ' ' right ++ ']' :: tail))))
      ('[' :: (withAfter ' ' left ++ (text ++ (withBefore ' ' right ++ ']' :: tail))))
      fun p => ∃ q, p = some q ∧ Q q) :
    LeadsIn total (indexing? limit (inner limit (depth + 1)) around)
      (head ++ '[' :: (withAfter ' ' left ++ (text ++ (withBefore ' ' right ++ ']' :: tail)))) tail
      fun found' => ∃ q b span, found' = some ⟨q, [b], span⟩ ∧ Q q ∧
        Holds found total (rest ++ (withBefore ' ' right ++ ']' :: tail)) (.bracket b) := by
  have enough : 1 < limit := by
    have := fits.enough
    have := fits.item.limit
    have := h.length_pos
    omega
  have row : LeadsIn total (items _ _ ']' .index) _ tail _ := leadsIn_items h fillers fits tail
  refine (leadsIn_indexing? enough reads (R := fun bs => ∃ b, bs = [b] ∧
    Holds found total (rest ++ (withBefore ' ' right ++ ']' :: tail)) (.bracket b))
    (collects_more (P := fun b => Holds found total (rest ++ (withBefore ' ' right ++ ']' :: tail))
      (.bracket b)) (leadsIn_peek ?_) fun b hb =>
        (collects_nextBracket_end next).mono fun _ none => ⟨b, congrArg _ none, hb⟩)).mono
          fun found' hfound => ?_
  · rw [if_pos (by rfl)]
    refine leadsIn_bind (leadsIn_offset fun start => leadsIn_advance (leadsIn_bind row fun cs hcs =>
      leadsIn_span fun span => leadsIn_pure ?_)) fun b hb => leadsIn_pure ⟨b, rfl, hb⟩
    obtain ⟨c, hc, holds⟩ := hcs
    exact holds.up (List.mem_map_of_mem hc)
  · obtain ⟨q, _, span, rfl, hq, b, rfl, hb⟩ := hfound
    exact ⟨q, b, span, rfl, hq, hb⟩

/-- No bareword goes on with a bracket. -/
theorem not_bareword_bracket (around : Surroundings) (cs : List Char) :
    ∀ c ∈ ('[' :: cs).head?, isBarewordChar around c = false := by
  rintro _ ⟨⟩
  rfl

/-- **As an index.** -/
theorem filled_index {head : List Char} (h : Filled found text rest) (filler : Filler head)
    (fillers : ∀ t ∈ left ++ right, Filler t) :
    Filled found (head ++ '[' :: (withAfter ' ' left ++ (text ++ (withBefore ' ' right ++ [']']))))
      (rest ++ (withBefore ' ' right ++ [']'])) where
  opens := by
    obtain ⟨c, body, rfl, opens⟩ := filler.opens
    exact ⟨c, _, rfl, opens⟩
  leads {limit depth} fits around tail ends total := by
    have size : head.length ≤ (head ++ '[' :: (withAfter ' ' left ++ (text ++
        (withBefore ' ' right ++ [']'])))).length := by
      rw [List.length_append]
      omega
    obtain ⟨below, rfl, rowFits⟩ := fits.row ' ' left right h.length_pos
      (by simp only [List.length_cons, List.length_append]; omega)
    have reads : LeadsIn total (primary? _ _ around) _ _ _ := leadsIn_primary?_filler filler
      ⟨Nat.lt_of_le_of_lt size fits.limit, Nat.le_trans size fits.depth⟩
      (not_bareword_bracket around (withAfter ' ' left ++ (text ++ (withBefore ' ' right ++ ']' :: tail))))
    have indexed := leadsIn_indexed h fillers rowFits (ends.head_ne (by decide)) reads
    have enough : 1 < limit := by
      have := rowFits.enough
      have := rowFits.item.limit
      have := h.length_pos
      omega
    have compound := leadsIn_compound (P := fun i => i.brackets ≠ [] ∧
      Holds found total (rest ++ (withBefore ' ' right ++ ']' :: tail)) (.indexing i)) enough
      (indexed.mono fun found' hfound => by
        obtain ⟨q, b, span, rfl, -, hb⟩ := hfound
        exact ⟨_, rfl, nofun, hb.up (List.mem_cons_of_mem _ List.mem_cons_self)⟩) ends
    simp only [List.append_assoc, List.cons_append, List.nil_append]
    refine compound.mono fun c hc => ?_
    obtain ⟨⟨q, brackets, span⟩, span', rfl, more, hi⟩ := hc
    refine ⟨⟨⟨_, rfl⟩, ?_⟩, hi.up List.mem_cons_self⟩
    cases brackets with
    | nil => exact absurd rfl more
    | cons b bs => exact nofun

/-- **What is read everywhere is read inside brackets and braces.** -/
theorem filled_within {before after : List Char} (h : Enclosed text found) (place : Within before after) :
    Filled found (before ++ (text ++ after)) (text ++ after) := by
  induction place with
  | here =>
    rw [List.append_nil]
    exact h.standing
  | listItem fillers _ ih =>
    have step := filled_listItem ih fillers
    simp only [List.append_assoc, List.cons_append] at step ⊢
    exact step
  | bracedItem fillers _ ih =>
    have step := filled_bracedItem ih fillers
    simp only [List.append_assoc, List.cons_append] at step ⊢
    exact step
  | mapKey fillers filler _ ih =>
    have step := filled_mapKey ih fillers filler
    simp only [List.append_assoc, List.cons_append, pairText] at step ⊢
    exact step
  | mapValue fillers filler _ ih =>
    have step := filled_mapValue ih fillers filler
    simp only [List.append_assoc, List.cons_append, pairText] at step ⊢
    exact step
  | index filler fillers _ ih =>
    have step := filled_index ih filler fillers
    simp only [List.append_assoc, List.cons_append] at step ⊢
    exact step

end Standing

end ValueShell
