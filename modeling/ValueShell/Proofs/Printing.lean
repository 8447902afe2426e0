/-
  Printed values are code.

  The rendering of a value is written by one part of the program and read by another, which agree on
  nothing but the language: which characters a bare word may hold, that a quote inside quotes is doubled,
  what tells a list from a map.  Here we follow the reader over a rendering.

  A rendering is only ever followed by a blank, by a closing bracket or, if it is the key of a map, by an
  equals sign (`Surroundings.Ends`).  Neither can be part of what comes before.
-/
import ValueShell.Proofs.Reading
import ValueShell.Syntax.Grammar
import ValueShell.Value.Basic

namespace ValueShell

open TextReader Reader

/-! ## Characters -/

namespace Value

/-- A plain character is none that is not. -/
theorem isPlainChar_ne {c d : Char} (h : isPlainChar c = true) (hd : isPlainChar d = false) :
    c ≠ d := by
  rintro rfl
  rw [h] at hd
  exact nomatch hd

end Value

namespace Surroundings

variable {around : Surroundings} {tail : List Char}

/-- **What may follow a rendering.** -/
def Ends (around : Surroundings) (tail : List Char) : Prop :=
  ∀ c ∈ tail.head?, c = ' ' ∨ c = ']' ∨ c = '=' ∧ around.stopAtEq = true

/-- What ends a rendering is a blank, a closing bracket, an equals sign, or the end of the code. -/
theorem Ends.head_ne (h : around.Ends tail) {d : Char} (hd : d ≠ ' ' ∧ d ≠ ']' ∧ d ≠ '=') :
    tail.head? ≠ some d := by
  intro heq
  rcases h d heq with rfl | rfl | ⟨rfl, -⟩
  · exact hd.1 rfl
  · exact hd.2.1 rfl
  · exact hd.2.2 rfl

/-- A bareword ends there. -/
theorem Ends.not_bareword (h : around.Ends tail) :
    ∀ c ∈ tail.head?, Grammar.isBarewordChar around c = false := by
  intro c hc
  rcases h c hc with rfl | rfl | ⟨rfl, heq⟩
  · rfl
  · rfl
  · rw [Grammar.isBarewordChar, if_pos rfl, heq]
    rfl

end Surroundings

/-- Plain characters stand in barewords, where a comma does not end them. -/
theorem Grammar.isBarewordChar_of_plain {around : Surroundings} (hb : around.inBraced = false)
    {c : Char} (h : Value.isPlainChar c = true) : isBarewordChar around c = true := by
  have hne : c ≠ '=' := Value.isPlainChar_ne h (by decide)
  rw [isBarewordChar, if_neg hne]
  split
  · rw [hb]
    rfl
  · next hcomma =>
    rcases Bool.or_eq_true_iff.mp h with hletter | hsign
    · rw [hletter, Bool.or_true]
    -- all plain signs but the comma are among the signs of barewords
    · have hmem : c ∈ barewordSigns := by
        simp only [List.contains_eq_mem, decide_eq_true_eq, List.mem_cons, List.not_mem_nil,
          or_false] at hsign
        rcases hsign with rfl | rfl | rfl | rfl | rfl | rfl | rfl | rfl | rfl | rfl
        all_goals first | decide | exact absurd rfl hcomma
      rw [List.contains_iff_mem.mpr hmem, Bool.true_or]

/-- The compound is one primary without brackets, with the property. -/
def Compound.IsOne (P : Primary → Prop) (c : Compound) : Prop :=
  ∃ head span span', c = ⟨[⟨head, [], span⟩], span'⟩ ∧ P head

namespace Grammar

variable {limit : Nat} {inner : Inner} {around : Surroundings} {tail : List Char}

/-! ## Words -/

/-- A text of plain characters is read as a bareword. -/
theorem leads_bareword? {text : List Char} (hne : text ≠ [])
    (hplain : ∀ c ∈ text, Value.isPlainChar c = true) (hb : around.inBraced = false)
    (ends : around.Ends tail) :
    Leads (bareword? around) (text ++ tail) tail
      fun p => ∃ span, p = some (.bareword (String.ofList text) span) := by
  refine leads_offset fun start => ?_
  refine leads_known (leads_munch (fun c hc => isBarewordChar_of_plain hb (hplain c hc))
    ends.not_bareword) ?_
  rw [if_neg (by simpa using hne)]
  exact leads_span fun span => leads_pure ⟨span, rfl⟩

/-- There is no word where a rendering ends. -/
theorem leads_bareword?_end (ends : around.Ends tail) :
    Leads (bareword? around) tail tail (· = none) := by
  have nothing : Leads (munch (isBarewordChar around) : Reader _) ([] ++ tail) tail (· = []) :=
    leads_munch nofun ends.not_bareword
  exact leads_offset fun start => leads_known nothing (leads_pure rfl)

/-- Where a rendering ends, no primary starts. -/
theorem leads_primary?_end (ends : around.Ends tail) :
    Leads (primary? limit inner around) tail tail (· = none) := by
  refine leads_offset fun start => leads_peek ?_
  cases tail with
  | nil => exact leads_pure rfl
  | cons c rest =>
    rcases ends c rfl with rfl | rfl | ⟨rfl, -⟩ <;> exact leads_bareword?_end ends

/-- A text of plain characters is read as a primary. -/
theorem leads_primary?_bareword {text : List Char} (hne : text ≠ [])
    (hplain : ∀ c ∈ text, Value.isPlainChar c = true) (hb : around.inBraced = false)
    (ends : around.Ends tail) :
    Leads (primary? limit inner around) (text ++ tail) tail
      fun p => ∃ span, p = some (.bareword (String.ofList text) span) := by
  have word := leads_bareword? hne hplain hb ends
  refine leads_offset fun start => leads_peek ?_
  cases text with
  | nil => exact absurd rfl hne
  | cons c rest =>
    have hc := hplain c List.mem_cons_self
    have opens {d : Char} (h : some c = some d) : Value.isPlainChar d = true :=
      Option.some.inj h ▸ hc
    -- a plain character opens no other primary
    dsimp only [List.cons_append, List.head?_cons]
    split
    · next heq => exact nomatch heq
    · next heq => exact nomatch opens heq
    · next heq => exact nomatch opens heq
    · next heq => exact nomatch opens heq
    · next heq => exact nomatch opens heq
    · next heq => exact nomatch opens heq
    · next heq => exact nomatch opens heq
    · exact word

/-- A text inside quotes, each quote in it written twice. -/
theorem leads_singleQuoted {text : List Char} (hlimit : text.length < limit)
    (hnext : tail.head? ≠ some '\'') :
    Leads (singleQuoted limit) (Value.inQuotes text ++ tail) tail (· = String.ofList text) := by
  refine leads_offset fun start => leads_advance ?_
  -- what is left is always the rest of the text with its quotes doubled, and then the closing quote
  refine leads_bind (Q := fun chars => List.Forall₂ Eq chars text) (leads_repeated
    (fun cs left => cs =
      left.flatMap (fun c => if c = '\'' then ['\'', '\''] else [c]) ++ '\'' :: tail)
    tail ?_ ?_ hlimit (by simp)) fun chars hchars => ?_
  -- the closing quote ends the text, since no second one follows it
  · rintro _ rfl
    refine leads_peek (leads_advance (leads_peek ?_))
    rw [if_neg (by simpa using hnext)]
    exact leads_pure rfl
  · rintro _ c left rfl
    refine ⟨_, rfl, leads_peek ?_⟩
    by_cases hc : c = '\''
    · subst hc
      exact leads_advance (leads_peek (leads_advance (leads_pure ⟨_, rfl, rfl⟩)))
    · rw [List.flatMap_cons, if_neg hc]
      dsimp only [List.cons_append, List.nil_append, List.head?_cons]
      split
      · next heq => exact nomatch heq
      · next heq => exact absurd (Option.some.inj heq) hc
      · next d heq =>
        cases heq
        exact leads_advance (leads_pure ⟨_, rfl, rfl⟩)
  · rw [List.forall₂_eq_eq_eq] at hchars
    exact leads_pure (congrArg String.ofList hchars)

/-- A text in quotes is read as what was put in quotes. -/
theorem leads_primary?_quoted {text : List Char} (hlimit : text.length < limit)
    (ends : around.Ends tail) :
    Leads (primary? limit inner around) (Value.inQuotes text ++ tail) tail
      fun p => ∃ span, p = some (.singleQuoted (String.ofList text) span) := by
  refine leads_offset fun start => leads_peek ?_
  exact leads_known (leads_singleQuoted hlimit (ends.head_ne (by decide)))
    (leads_span fun span => leads_pure ⟨span, rfl⟩)

/-- A variable. -/
theorem leads_primary?_reference (name : List Char) (hne : name ≠ [])
    (hname : ∀ c ∈ name, isVariableChar c = true) (hat : name.head? ≠ some '@')
    (ends : around.Ends tail) :
    Leads (primary? limit inner around) ('$' :: name ++ tail) tail
      fun p => ∃ span, p = some (.reference (String.ofList name) span) := by
  have next : ∀ c ∈ tail.head?, isVariableChar c = false := by
    intro c hc
    rcases ends c hc with rfl | rfl | ⟨rfl, -⟩ <;> rfl
  refine leads_offset fun start => leads_peek ?_
  refine leads_known (b := String.ofList name) ?_ (leads_span fun span => leads_pure ⟨span, rfl⟩)
  refine leads_offset fun start => leads_advance (leads_peek ?_)
  have unmarked : ((name.append tail).head? == some '@') = false := by
    cases name with
    | nil => exact absurd rfl hne
    | cons c rest => simpa using hat
  rw [unmarked]
  refine leads_known (leads_munch hname next) ?_
  rw [if_neg (by simpa using hne)]
  exact leads_pure rfl

/-! ## Compounds -/

/-- Nor does an indexing start there. -/
theorem leads_indexing?_end (ends : around.Ends tail) :
    Leads (indexing? limit inner around) tail tail (· = none) :=
  leads_offset fun _ => leads_known (leads_primary?_end ends) (leads_pure rfl)

/-- A primary without brackets after it. -/
theorem leads_indexing? {cs : List Char} {P : Primary → Prop} (hlimit : 0 < limit)
    (hp : Leads (primary? limit inner around) cs tail fun p => ∃ q, p = some q ∧ P q)
    (hnext : tail.head? ≠ some '[') :
    Leads (indexing? limit inner around) cs tail
      fun i => ∃ head span, i = some ⟨head, [], span⟩ ∧ P head := by
  refine leads_offset fun start => leads_bind hp fun p hq => ?_
  obtain ⟨head, rfl, hhead⟩ := hq
  refine leads_known (leads_repeated_none tail hlimit (leads_peek ?_))
    (leads_span fun span => leads_pure ⟨head, span, rfl, hhead⟩)
  rw [if_neg (by simpa using hnext)]
  exact leads_pure rfl

/-- A primary where a rendering ends is a compound. -/
theorem leads_compound {cs : List Char} {P : Primary → Prop} (hlimit : 1 < limit)
    (hp : Leads (primary? limit inner around) cs tail fun p => ∃ q, p = some q ∧ P q)
    (ends : around.Ends tail) :
    Leads (compound limit inner around) cs tail (Compound.IsOne P) := by
  refine leads_offset fun start => leads_bind (leads_repeated_once tail
    (P := fun i => ∃ head span, i = ⟨head, [], span⟩ ∧ P head) hlimit (leads_bind
      (leads_indexing? (Nat.lt_of_succ_lt hlimit) hp (ends.head_ne (by decide))) ?_)
    (leads_known (leads_indexing?_end ends) (leads_pure rfl))) fun found hfound => ?_
  · rintro _ ⟨head, span, rfl, hhead⟩
    exact leads_pure ⟨_, rfl, head, span, rfl, hhead⟩
  · obtain ⟨_, rfl, head, span, rfl, hhead⟩ := hfound
    exact leads_span fun span' => leads_pure ⟨head, span, span', rfl, hhead⟩

end Grammar

/-! ## Renderings -/

namespace Value

/-- A character that a rendering starts with. -/
def opens (c : Char) : Bool := c == '\'' || c == '$' || c == '[' || isPlainChar c

/-- What opens a rendering is none of the signs. -/
theorem opens_ne {c d : Char} (h : opens c = true) (hd : opens d = false) : c ≠ d := by
  rintro rfl
  rw [h] at hd
  exact nomatch hd

/-- In particular it is no blank. -/
theorem opens_not_blank {c : Char} (h : opens c = true) : isSpaceOrNewline c = false := by
  have blank : c ≠ ' ' ∧ c ≠ '\t' ∧ c ≠ '\r' ∧ c ≠ '\n' :=
    ⟨opens_ne h (by decide), opens_ne h (by decide), opens_ne h (by decide),
      opens_ne h (by decide)⟩
  simp [isSpaceOrNewline, isSpace, blank]

/-- A quoted text opens with a plain character or a quote. -/
theorem opens_quoted (s : String) : ∃ c rest, (quoted s).toList = c :: rest ∧ opens c = true := by
  unfold quoted
  split
  · next h =>
    obtain ⟨hne, hall⟩ := h
    cases hs : s.toList with
    | nil => exact absurd (String.toList_eq_nil_iff.mp hs) hne
    | cons c rest =>
      rw [hs] at hall
      have hc : isPlainChar c = true := List.all_eq_true.mp hall c List.mem_cons_self
      exact ⟨c, rest, rfl, by simp [opens, hc]⟩
  · exact ⟨'\'', _, String.toList_ofList, rfl⟩

end Value

namespace Grammar

open Value

variable {limit : Nat} {inner : Inner} {around : Surroundings} {tail : List Char}

/-- Quotes make a text longer. -/
theorem length_le_inQuotes (cs : List Char) : cs.length + 2 ≤ (inQuotes cs).length := by
  -- doubling a quote makes the text longer, never shorter
  have double : cs.length ≤ (cs.flatMap fun c => if c = '\'' then ['\'', '\''] else [c]).length := by
    induction cs with
    | nil => exact Nat.le_refl _
    | cons c cs ih =>
      rw [List.flatMap_cons, List.length_append, List.length_cons]
      split <;> simp only [List.length_cons, List.length_nil] <;> omega
  simp only [inQuotes, List.cons_append, List.length_cons, List.length_append, List.length_nil]
  omega

/-- **A word is read back** as a literal, which is not an equals sign. -/
theorem leads_primary?_quoted_text (s : String) (hlimit : (quoted s).toList.length < limit)
    (hb : around.inBraced = false) (ends : around.Ends tail) :
    Leads (primary? limit inner around) ((quoted s).toList ++ tail) tail
      fun p => ∃ q, p = some q ∧ q.literal? = some s ∧ q.bareword? ≠ some "=" := by
  unfold quoted at hlimit ⊢
  split at hlimit
  · next h =>
    obtain ⟨hne, hall⟩ := h
    rw [if_pos ⟨hne, hall⟩]
    have plain := List.all_eq_true.mp hall
    refine (leads_primary?_bareword (fun hs => hne (String.toList_eq_nil_iff.mp hs)) plain hb
      ends).mono fun p hp => ?_
    obtain ⟨span, rfl⟩ := hp
    refine ⟨_, rfl, congrArg some String.ofList_toList, fun heq => ?_⟩
    have hs : s = "=" := by simpa [Primary.bareword?] using heq
    subst hs
    exact nomatch plain '=' (by decide)
  · next h =>
    rw [if_neg h, String.toList_ofList]
    rw [String.toList_ofList] at hlimit
    have hlength := length_le_inQuotes s.toList
    refine (leads_primary?_quoted (by omega) ends).mono fun p hp => ?_
    obtain ⟨span, rfl⟩ := hp
    exact ⟨_, rfl, congrArg some String.ofList_toList, nofun⟩

end Grammar

namespace Value

/-- **The text is read back** as a primary with the property, where it stands as a compound of its
own. -/
structure Reads (P : Primary → Prop) (text : List Char) : Prop where
  opens : ∃ c rest, text = c :: rest ∧ opens c = true
  leads : ∀ {limit depth tail}, text.length < limit → text.length ≤ depth →
    Surroundings.plain.Ends tail →
      Leads (Grammar.primary? limit (Grammar.inner limit depth) .plain) (text ++ tail) tail
        fun p => ∃ q, p = some q ∧ P q

namespace Reads

variable {P : Primary → Prop} {text : List Char}

/-- Less may be said of the primary. -/
theorem mono {Q : Primary → Prop} (h : Reads P text) (hq : ∀ p, P p → Q p) : Reads Q text where
  opens := h.opens
  leads hl hd ends := (h.leads hl hd ends).mono fun _ ⟨q, hq', hp⟩ => ⟨q, hq', hq q hp⟩

/-- There is something to read. -/
theorem length_pos (h : Reads P text) : 0 < text.length := by
  obtain ⟨c, rest, rfl, -⟩ := h.opens
  exact Nat.zero_lt_succ _

/-- **A rendering is read as one word**, wherever it is ended. -/
theorem compound (h : Reads P text) {limit depth : Nat} {tail : List Char}
    (hl : text.length < limit) (hd : text.length ≤ depth) (ends : Surroundings.plain.Ends tail) :
    Leads (Grammar.compound limit (Grammar.inner limit depth) .plain) (text ++ tail) tail
      (Compound.IsOne P) :=
  Grammar.leads_compound (Nat.lt_of_le_of_lt h.length_pos hl) (h.leads hl hd ends) ends

end Reads

/-- A text is read as the literal that it was. -/
theorem reads_quoted (s : String) :
    Reads (fun p => p.literal? = some s ∧ p.bareword? ≠ some "=") (quoted s).toList where
  opens := opens_quoted s
  leads hl _ ends := Grammar.leads_primary?_quoted_text s hl rfl ends

/-- The name of the variable that holds a truth value. -/
def truthName (b : Bool) : String := if b then "true" else "false"

/-- A truth value is read as the variable of its name. -/
theorem reads_bool (b : Bool) :
    Reads (fun p => ∃ span, p = .reference (truthName b) span) (repr (.bool b)).toList where
  opens := by cases b <;> exact ⟨'$', _, rfl, rfl⟩
  leads _ _ ends := by
    have name : (repr (.bool b)).toList = '$' :: (truthName b).toList := by cases b <;> rfl
    rw [name]
    have letters : (truthName b).toList.all Grammar.isVariableChar = true := by cases b <;> rfl
    refine (Grammar.leads_primary?_reference (truthName b).toList (by cases b <;> decide)
      (List.all_eq_true.mp letters) (by cases b <;> decide) ends).mono fun p hp => ?_
    obtain ⟨span, rfl⟩ := hp
    exact ⟨_, rfl, span, congrArg (Primary.reference · span) String.ofList_toList⟩

end Value

namespace Grammar

open Value

variable {limit depth : Nat} {tail : List Char}

/-- The text from the blank before a part of a container on, up to its end: each part has one. -/
def parts (texts : List (List Char)) (tail : List Char) : List Char :=
  texts.flatMap (' ' :: ·) ++ ']' :: tail

/-- Each part has a blank in front. -/
theorem parts_cons (t : List Char) (ts : List (List Char)) (tail : List Char) :
    parts (t :: ts) tail = ' ' :: (t ++ parts ts tail) := by
  simp [parts]

/-- And each part is ended by what comes after it. -/
theorem ends_parts (texts : List (List Char)) (tail : List Char) :
    Surroundings.plain.Ends (parts texts tail) := by
  intro c hc
  cases texts with
  | nil =>
    cases hc
    exact .inr (.inl rfl)
  | cons t ts =>
    cases hc
    exact .inl rfl

/-- The parts of a container, the first one with or without a blank before it. -/
def AtParts {β : Type} (text : β → List Char) (tail : List Char) (cs : List Char) (bs : List β) :
    Prop :=
  cs = parts (bs.map text) tail ∨ ' ' :: cs = parts (bs.map text) tail

/-- After the last part comes the bracket. -/
theorem AtParts.nil {β : Type} {text : β → List Char} {cs : List Char}
    (h : AtParts text tail cs ([] : List β)) : cs = ']' :: tail := by
  rcases h with h | h
  · exact h
  · exact nomatch h

/-- Before that, there is one more part, or the blank in front of it. -/
theorem AtParts.cons {β : Type} {text : β → List Char} {cs : List Char} {b : β} {bs : List β}
    (h : AtParts text tail cs (b :: bs)) :
    cs = text b ++ parts (bs.map text) tail ∨ cs = ' ' :: (text b ++ parts (bs.map text) tail) := by
  rw [AtParts, List.map_cons, parts_cons] at h
  exact h.symm.imp_left fun h => (List.cons.inj h).2

/-- The parts of a container without a blank before the first one. -/
def body (texts : List (List Char)) (tail : List Char) : List Char :=
  match texts with
  | [] => ']' :: tail
  | t :: ts => t ++ parts ts tail

theorem atParts_body {β : Type} (text : β → List Char) (tail : List Char) (bs : List β) :
    AtParts text tail (body (bs.map text) tail) bs := by
  cases bs with
  | nil => exact .inl rfl
  | cons b bs => exact .inr (parts_cons _ _ _).symm

/-- The rendering of a list is its body, whatever comes after. -/
theorem body_append (texts : List (List Char)) (tail : List Char) :
    body texts [] ++ tail = body texts tail := by
  cases texts with
  | nil => rfl
  | cons t ts => simp [body, parts]

theorem toList_intercalate (ss : List String) :
    (" ".intercalate ss).toList ++ [']'] = body (ss.map String.toList) [] := by
  cases ss with
  | nil => rfl
  | cons t ts =>
    induction ts generalizing t with
    | nil => simp [body, parts]
    | cons u us ih =>
      rw [String.intercalate_cons_cons, String.toList_append, String.toList_append,
        List.append_assoc, List.append_assoc, ih u]
      simp [body, parts]

/-- No part is longer than the whole. -/
theorem length_lt_body (texts : List (List Char)) (tail : List Char) :
    texts.length < (body texts tail).length + 1 ∧
      ∀ t ∈ texts, t.length < (body texts tail).length := by
  have parts (ts : List (List Char)) : ts.length < (parts ts tail).length ∧
      ∀ t ∈ ts, t.length < (parts ts tail).length := by
    induction ts with
    | nil => exact ⟨Nat.zero_lt_succ _, nofun⟩
    | cons t ts ih =>
      rw [parts_cons]
      simp only [List.length_cons, List.length_append, List.mem_cons, forall_eq_or_imp]
      exact ⟨by omega, by omega, fun u hu => by have := ih.2 u hu; omega⟩
  cases texts with
  | nil => exact ⟨by simp, nofun⟩
  | cons t ts =>
    simp only [body, List.length_cons, List.length_append, List.mem_cons, forall_eq_or_imp]
    have := parts ts
    exact ⟨by omega, by omega, fun u hu => by have := this.2 u hu; omega⟩

/-- A rendering that fits the bounds of the reader. -/
structure Fits (limit depth : Nat) (text : List Char) : Prop where
  limit : text.length < limit
  depth : text.length ≤ depth

/-- A container takes one level of nesting, and all of its parts fit into the level below. -/
theorem fits_body {β : Type} {text : β → List Char} {bs : List β}
    (h : Fits limit depth ('[' :: body (bs.map text) [])) :
    bs.length < limit ∧ ∃ below, depth = below + 1 ∧ ∀ b ∈ bs, Fits limit below (text b) := by
  obtain ⟨hl, hd⟩ := h
  rw [List.length_cons] at hl hd
  have hcount := (length_lt_body (bs.map text) []).1
  rw [List.length_map] at hcount
  obtain ⟨below, rfl⟩ : ∃ n, depth = n + 1 := Nat.exists_eq_succ_of_ne_zero (by omega)
  refine ⟨by omega, below, rfl, fun b hb => ?_⟩
  have hb := (length_lt_body (bs.map text) []).2 (text b) (List.mem_map_of_mem hb)
  exact ⟨Nat.lt_trans hb (by omega), Nat.le_trans (Nat.le_of_lt hb) (by omega)⟩

/-- **A list is read item by item**, if its items are read. -/
theorem leads_items (P : Value → Primary → Prop) (what : Construct) {vs : List Value}
    (reads : ∀ v ∈ vs, Reads (P v) v.repr.toList) (fits : ∀ v ∈ vs, Fits limit depth v.repr.toList)
    (hlimit : vs.length < limit) {cs : List Char}
    (hcs : AtParts (fun v : Value => v.repr.toList) tail cs vs) :
    Leads (items limit (inner limit (depth + 1)) ']' what) cs tail
      fun found => List.Forall₂ (fun c v => c.IsOne (P v)) found vs := by
  refine leads_offset fun start => leads_repeated (fun cs left => left ⊆ vs ∧
    AtParts (fun v : Value => v.repr.toList) tail cs left) tail ?_ ?_ hlimit ⟨fun _ h => h, hcs⟩
  · rintro cs ⟨-, hcs⟩
    rw [hcs.nil]
    exact leads_skipBlank (by decide) (by decide) (leads_peek (leads_advance (leads_pure rfl)))
  -- a round reads the blank before an item and the item, and stops at the blank before the next one
  · rintro cs v left ⟨hsub, hcs⟩
    have hv : v ∈ vs := hsub List.mem_cons_self
    refine ⟨_, ⟨fun x hx => hsub (List.mem_cons_of_mem _ hx), .inl rfl⟩, ?_⟩
    have item := (reads v hv).compound (fits v hv).limit (fits v hv).depth
      (ends_parts (left.map fun v => v.repr.toList) tail)
    obtain ⟨c, rest, htext, hopens⟩ := (reads v hv).opens
    refine leads_skipBlank_either hcs.cons ?_
    rw [htext] at item ⊢
    refine leads_skipBlank (opens_not_blank hopens) (opens_ne hopens (by decide)) (leads_peek ?_)
    dsimp only [List.cons_append, List.head?_cons]
    rw [if_neg (opens_ne hopens (by decide))]
    refine leads_bind item fun found hfound => ?_
    obtain ⟨head, span, span', rfl, hhead⟩ := hfound
    exact leads_pure ⟨_, rfl, head, span, span', rfl, hhead⟩

/-- The rendering of an entry of a map. -/
def entryText (e : String × Value) : List Char :=
  '&' :: ((quoted e.1).toList ++ '=' :: e.2.repr.toList)

/-- The pair is what an entry was read from. -/
def IsPair (P : Value → Primary → Prop) (pair : MapPair) (e : String × Value) : Prop :=
  pair.key.IsOne (fun p => p.literal? = some e.1) ∧ pair.value.IsOne (P e.2)

/-- The key of an entry ends at the equals sign. -/
theorem leads_key {around : Surroundings} (key : String) {rest : List Char}
    (fits : Fits limit depth (quoted key).toList) (hb : around.inBraced = false)
    (heq : around.stopAtEq = true) :
    Leads (compound limit (inner limit depth) around) ((quoted key).toList ++ '=' :: rest)
      ('=' :: rest) (Compound.IsOne fun p => p.literal? = some key) := by
  have ends : around.Ends ('=' :: rest) := by
    intro c hc
    cases hc
    exact .inr (.inr ⟨rfl, heq⟩)
  have hlimit := Nat.lt_of_le_of_lt (reads_quoted key).length_pos fits.limit
  refine leads_compound hlimit ?_ ends
  refine (leads_primary?_quoted_text key fits.limit hb ends).mono fun p hp => ?_
  obtain ⟨q, rfl, hq, -⟩ := hp
  exact ⟨q, rfl, hq⟩

/-- **A map is read pair by pair.** -/
theorem leads_mapPairs (P : Value → Primary → Prop) {entries : List (String × Value)} {start : Nat}
    (reads : ∀ e ∈ entries, Reads (P e.2) e.2.repr.toList)
    (fits : ∀ e ∈ entries, Fits limit depth (entryText e)) (hlimit : entries.length < limit)
    {cs : List Char} (hcs : AtParts entryText tail cs entries) :
    Leads (mapPairs limit (inner limit (depth + 1)) start) cs tail
      fun found => List.Forall₂ (IsPair P) found entries := by
  refine leads_repeated (fun cs left => left ⊆ entries ∧ AtParts entryText tail cs left) tail
    ?_ ?_ hlimit ⟨fun _ h => h, hcs⟩
  · rintro cs ⟨-, hcs⟩
    rw [hcs.nil]
    exact leads_skipBlank (by decide) (by decide) (leads_peek (leads_advance (leads_pure rfl)))
  · rintro cs ⟨key, v⟩ left ⟨hsub, hcs⟩
    have he : (key, v) ∈ entries := hsub List.mem_cons_self
    refine ⟨_, ⟨fun x hx => hsub (List.mem_cons_of_mem _ hx), .inl rfl⟩, ?_⟩
    have length : (entryText (key, v)).length =
        (quoted key).toList.length + v.repr.toList.length + 2 := by
      simp only [entryText, List.length_cons, List.length_append]
      omega
    obtain ⟨hl, hd⟩ := fits _ he
    have value : Reads (P v) v.repr.toList := reads (key, v) he
    have atValue := value.compound (Nat.lt_of_le_of_lt (by omega) hl)
      (Nat.le_trans (by omega) hd) (ends_parts (left.map entryText) tail)
    -- the key ends at the equals sign, the value at the blank before the next pair or at the bracket
    have atKey : Leads (compound limit (inner limit depth) .target) ((quoted key).toList ++
        '=' :: (v.repr.toList ++ parts (left.map entryText) tail)) _ _ :=
      leads_key key ⟨by omega, by omega⟩ rfl rfl
    obtain ⟨c, rest, htext, hopens⟩ := opens_quoted key
    have text : entryText (key, v) ++ parts (left.map entryText) tail = '&' ::
        ((quoted key).toList ++ '=' :: (v.repr.toList ++ parts (left.map entryText) tail)) := by
      simp [entryText]
    refine leads_skipBlank_either hcs.cons ?_
    rw [text]
    refine leads_skipBlank (by decide) (by decide) (leads_peek ?_)
    refine leads_offset fun pairStart => leads_advance (leads_peek ?_)
    rw [if_neg (by simpa [htext] using opens_ne hopens (by decide))]
    refine leads_bind atKey fun k hk => leads_peek ?_
    obtain ⟨head, span, span', rfl, hkey⟩ := hk
    rw [if_neg (by simp)]
    refine leads_advance (leads_bind atValue fun found hfound => leads_span fun pairSpan => ?_)
    exact leads_pure ⟨_, rfl, ⟨head, span, span', rfl, hkey⟩, hfound⟩

end Grammar

namespace Value

/-! ## Containers -/

theorem reprItems_eq (vs : List Value) : reprItems vs = vs.map repr := by
  induction vs with
  | nil => rfl
  | cons v vs ih => cases v <;> simp [reprItems, repr, ih]

theorem reprEntries_eq (entries : List (String × Value)) :
    reprEntries entries = entries.map fun e => "&" ++ quoted e.1 ++ "=" ++ e.2.repr := by
  induction entries with
  | nil => rfl
  | cons e entries ih =>
    obtain ⟨key, v⟩ := e
    cases v <;> simp [reprEntries, repr, ih]

/-- The characters of a list. -/
theorem toList_repr_list (vs : List Value) :
    (repr (.list vs)).toList = '[' :: Grammar.body (vs.map fun v => v.repr.toList) [] := by
  show ("[" ++ " ".intercalate (reprItems vs) ++ "]").toList = _
  rw [reprItems_eq, String.toList_append, String.toList_append, List.append_assoc]
  refine congrArg ('[' :: ·) ((Grammar.toList_intercalate _).trans ?_)
  rw [List.map_map]
  rfl

/-- The characters of a map that is not empty. -/
theorem toList_repr_map {entries : List (String × Value)} (h : entries ≠ []) :
    (repr (.map entries)).toList = '[' :: Grammar.body (entries.map Grammar.entryText) [] := by
  have hrepr : repr (.map entries) = "[" ++ " ".intercalate (reprEntries entries) ++ "]" := by
    cases entries with
    | nil => exact absurd rfl h
    | cons e entries => rfl
  rw [hrepr, reprEntries_eq, String.toList_append, String.toList_append, List.append_assoc]
  refine congrArg ('[' :: ·) ((Grammar.toList_intercalate _).trans ?_)
  rw [List.map_map]
  refine congrArg (Grammar.body · []) (List.map_congr_left fun e _ => ?_)
  simp [Grammar.entryText]

variable {limit depth : Nat} {tail : List Char}

/-- The first character of a container's parts is no blank. -/
theorem body_head (tail : List Char) {β : Type} {text : β → List Char} {bs : List β}
    (h : ∀ b ∈ bs, ∃ c rest, text b = c :: rest ∧ opens c = true) :
    ∃ c rest, Grammar.body (bs.map text) tail = c :: rest ∧ (c = ']' ∨ opens c = true) := by
  cases bs with
  | nil => exact ⟨']', tail, rfl, .inl rfl⟩
  | cons b bs =>
    obtain ⟨c, rest, htext, hc⟩ := h b List.mem_cons_self
    exact ⟨c, rest ++ Grammar.parts (bs.map text) tail, by
      rw [List.map_cons, Grammar.body, htext, List.cons_append], .inr hc⟩

/-- **A list is read back**, given that its items are. -/
theorem reads_list (P : Value → Primary → Prop) {vs : List Value}
    (reads : ∀ v ∈ vs, Reads (P v) v.repr.toList) :
    Reads (fun p => ∃ items span, p = .list items span ∧
      List.Forall₂ (fun c v => c.IsOne (P v)) items vs) (repr (.list vs)).toList where
  opens := ⟨'[', _, toList_repr_list vs, rfl⟩
  leads {limit depth tail} hl hd ends := by
    rw [toList_repr_list] at hl hd
    obtain ⟨hcount, depth, rfl, fits⟩ := Grammar.fits_body ⟨hl, hd⟩
    rw [toList_repr_list, List.cons_append, Grammar.body_append]
    refine leads_offset fun start => leads_peek ?_
    refine leads_bind (Q := fun p => ∃ items span, p = .list items span ∧
      List.Forall₂ (fun c v => c.IsOne (P v)) items vs) (leads_advance ?_) fun p hp =>
        leads_pure ⟨p, rfl, hp⟩
    obtain ⟨c, rest, hbody, hc⟩ := body_head tail fun v hv => (reads v hv).opens
    have found := Grammar.leads_items P .list reads fits hcount
      (Grammar.atParts_body (fun v : Value => v.repr.toList) tail vs)
    rw [hbody] at found ⊢
    have starts {d : Char} (hd : d ≠ ']' ∧ opens d = false) : c ≠ d := by
      rcases hc with rfl | hc
      · exact hd.1.symm
      · exact opens_ne hc hd.2
    have blank : isSpaceOrNewline c = false := by
      rcases hc with rfl | hc
      · rfl
      · exact opens_not_blank hc
    refine leads_skipBlank blank (starts (by decide)) (leads_peek ?_)
    rw [if_neg (by simpa using starts (by decide))]
    refine leads_bind found fun items hitems => leads_peek ?_
    rw [if_neg (by simpa using ends.head_ne (by decide))]
    exact leads_span fun span => leads_pure ⟨items, span, rfl, hitems⟩

/-- **A map is read back**, given that its values are. -/
theorem reads_map (P : Value → Primary → Prop) {entries : List (String × Value)}
    (reads : ∀ e ∈ entries, Reads (P e.2) e.2.repr.toList) :
    Reads (fun p => ∃ pairs span, p = .map pairs span ∧
      List.Forall₂ (Grammar.IsPair P) pairs entries) (repr (.map entries)).toList where
  opens := by
    cases entries with
    | nil => exact ⟨'[', _, rfl, rfl⟩
    | cons e entries => exact ⟨'[', _, toList_repr_map (List.cons_ne_nil e entries), rfl⟩
  leads {limit depth tail} hl hd ends := by
    -- the cursor is on the first ampersand
    suffices h : ∃ rest, (repr (.map entries)).toList ++ tail = '[' :: '&' :: rest ∧
        ∀ start, Leads (Grammar.mapPairs limit (Grammar.inner limit depth) start) ('&' :: rest) tail
          fun found => List.Forall₂ (Grammar.IsPair P) found entries by
      obtain ⟨rest, htext, found⟩ := h
      rw [htext]
      refine leads_offset fun start => leads_peek ?_
      refine leads_bind (Q := fun p => ∃ pairs span, p = .map pairs span ∧
        List.Forall₂ (Grammar.IsPair P) pairs entries) (leads_advance ?_) fun p hp =>
          leads_pure ⟨p, rfl, hp⟩
      refine leads_skipBlank (by decide) (by decide) (leads_peek ?_)
      rw [if_pos (by simp)]
      exact leads_bind (found start) fun pairs hpairs => leads_span fun span =>
        leads_pure ⟨pairs, span, rfl, hpairs⟩
    cases entries with
    | nil =>
      refine ⟨']' :: tail, rfl, fun start => ?_⟩
      refine (leads_repeated_none tail (Nat.zero_lt_of_lt hl) ?_).mono fun _ hp => hp ▸ .nil
      refine leads_skipBlank (by decide) (by decide) (leads_peek ?_)
      refine leads_offset fun pairStart => leads_advance (leads_peek ?_)
      exact leads_advance (leads_pure rfl)
    | cons e entries =>
      rw [toList_repr_map (List.cons_ne_nil e entries)] at hl hd ⊢
      obtain ⟨hcount, depth, rfl, fits⟩ := Grammar.fits_body ⟨hl, hd⟩
      rw [List.cons_append, Grammar.body_append]
      exact ⟨_, rfl, fun start => Grammar.leads_mapPairs P reads fits hcount
        (Grammar.atParts_body Grammar.entryText tail (e :: entries))⟩

end Value

namespace Grammar

open Value

variable {limit depth : Nat} {inner : Inner}

/-! ## A command with one argument -/

/-- A word before a blank starts no assignment. -/
theorem leads_compactAssignments_none {word rest : List Char} (hlimit : 0 < limit)
    (hne : word ≠ []) (hplain : ∀ c ∈ word, isPlainChar c = true) :
    Leads (compactAssignments limit inner) (word ++ ' ' :: rest) (word ++ ' ' :: rest)
      (· = []) := by
  have ends : Surroundings.target.Ends (' ' :: rest) := by
    intro c hc
    cases hc
    exact .inl rfl
  have left : Leads (indexing? limit inner .target) (word ++ ' ' :: rest) (' ' :: rest)
      fun i => ∃ head span, i = some ⟨head, [], span⟩ ∧
        ∃ span', head = .bareword (String.ofList word) span' := by
    refine leads_indexing? hlimit ?_ (ends.head_ne (by decide))
    refine (leads_primary?_bareword hne hplain rfl ends).mono fun p hp => ?_
    obtain ⟨span, rfl⟩ := hp
    exact ⟨_, rfl, span, rfl⟩
  have nothing : Leads (compactAssignment? limit inner) (word ++ ' ' :: rest) (' ' :: rest)
      (· = none) := by
    cases word with
    | nil => exact absurd rfl hne
    | cons c word =>
      have hc := hplain c List.mem_cons_self
      have target : ¬startsNoTarget c (word ++ ' ' :: rest).head? = true := by
        simp [startsNoTarget, isPlainChar_ne hc (show isPlainChar '[' = false by decide),
          isPlainChar_ne hc (show isPlainChar '(' = false by decide),
          isPlainChar_ne hc (show isPlainChar '$' = false by decide),
          isPlainChar_ne hc (show isPlainChar '\'' = false by decide),
          isPlainChar_ne hc (show isPlainChar '"' = false by decide),
          isPlainChar_ne hc (show isPlainChar '\x7b' = false by decide)]
      -- the word is read as a target, no equals sign follows, and the attempt takes the word back
      refine leads_offset fun start => leads_peek (leads_second ?_)
      refine (if_neg target).symm ▸ leads_bind left fun i hi => ?_
      obtain ⟨head, span, rfl, span', rfl⟩ := hi
      exact leads_peek (leads_pure rfl)
  refine leads_known (leads_repeated_none _ hlimit
    (leads_known (leads_attempt_none nothing) (leads_pure rfl))) (leads_pure rfl)

/-- The form is a command with one argument. -/
def IsCommand (name : String) (P : Primary → Prop) (f : Form) : Prop :=
  ∃ head arg span, f = .command head [arg] span ∧
    head.IsOne (fun p => p.literal? = some name) ∧ arg.IsOne P

/-- What opens a rendering does not end a form. -/
theorem leads_atFormEnd_opens {c : Char} {rest : List Char} (h : opens c = true) :
    Leads atFormEnd (c :: rest) (c :: rest) (· = false) := by
  refine leads_peek (leads_pure ?_)
  simp [opens_ne h (show opens '\n' = false by decide),
    opens_ne h (show opens ';' = false by decide), opens_ne h (show opens '|' = false by decide),
    opens_ne h (show opens ')' = false by decide), opens_ne h (show opens '\x7d' = false by decide),
    opens_ne h (show opens '#' = false by decide)]

/-- **A command** whose only argument is a rendering. -/
theorem leads_commandForm {P : Primary → Prop} (hP : ∀ p, P p → p.bareword? ≠ some "=")
    {word text : List Char} (hne : word ≠ []) (hplain : ∀ c ∈ word, isPlainChar c = true)
    (h : Reads P text) (fits : Fits limit depth text) (hlimit : word.length < limit) :
    Leads (commandForm limit (Grammar.inner limit depth)) (word ++ ' ' :: text) []
      (IsCommand (String.ofList word) P) := by
  have two : 1 < limit := Nat.lt_of_le_of_lt (List.length_pos_iff.mpr hne) hlimit
  have ends : Surroundings.plain.Ends (' ' :: text) := by
    intro c hc
    cases hc
    exact .inl rfl
  have head : Leads (compound limit (Grammar.inner limit depth) .plain) (word ++ ' ' :: text)
      (' ' :: text) (Compound.IsOne fun p => p.literal? = some (String.ofList word)) := by
    refine leads_compound two ?_ ends
    refine (leads_primary?_bareword hne hplain rfl ends).mono fun p hp => ?_
    obtain ⟨span, rfl⟩ := hp
    exact ⟨_, rfl, rfl⟩
  have arg : Leads (compound limit (Grammar.inner limit depth) .plain) (text ++ []) []
      (Compound.IsOne P) := h.compound fits.limit fits.depth nofun
  rw [List.append_nil] at arg
  obtain ⟨c, rest, htext, hopens⟩ := h.opens
  refine leads_offset fun start => leads_bind head fun head hhead => ?_
  obtain ⟨primary, s, s', rfl, hprimary⟩ := hhead
  rw [if_neg (by simp)]
  refine leads_bind (leads_repeated_once (P := Compound.IsOne P) [] two ?_ ?_) fun args hargs => ?_
  · refine leads_skipSpaces_space (leads_skipSpaces ?_ ?_)
    · intro d hd
      rw [htext] at hd
      cases hd
      exact (Bool.or_eq_false_iff.mp (opens_not_blank hopens)).1
    · have goesOn : Leads atFormEnd text text (· = false) := htext ▸ leads_atFormEnd_opens hopens
      refine leads_known goesOn (leads_bind arg fun found hfound => ?_)
      obtain ⟨primary, s, s', rfl, hp⟩ := hfound
      exact leads_pure ⟨_, rfl, primary, s, s', rfl, hp⟩
  · exact leads_skipSpaces_end (leads_known (leads_peek (leads_pure rfl)) (leads_pure rfl))
  · obtain ⟨_, rfl, q, s₁, s₂, rfl, hq⟩ := hargs
    have notEquals : ¬Compound.bareword? ⟨[⟨q, [], s₁⟩], s₂⟩ = some "=" := hP q hq
    dsimp only
    rw [if_neg notEquals]
    exact leads_pure ⟨_, _, _, rfl, ⟨primary, s, s', rfl, hprimary⟩, q, s₁, s₂, rfl, hq⟩

/-- The chunk is a command with one argument. -/
def IsUnit (name : String) (P : Primary → Prop) (c : Chunk) : Prop :=
  ∃ f span span', c = ⟨[⟨[f], span⟩], span'⟩ ∧ IsCommand name P f

/-- **A unit** that is such a command. -/
theorem leads_unit {P : Primary → Prop} (hP : ∀ p, P p → p.bareword? ≠ some "=")
    {word text : List Char} (hne : word ≠ []) (hplain : ∀ c ∈ word, isPlainChar c = true)
    (h : Reads P text) (fits : Fits limit limit text) (hlimit : word.length < limit) :
    Leads (unit limit) (word ++ ' ' :: text) [] (IsUnit (String.ofList word) P) := by
  have one : 0 < limit := Nat.zero_lt_of_lt hlimit
  have form : Leads (form limit (Grammar.inner limit limit)) (word ++ ' ' :: text) []
      (IsCommand (String.ofList word) P) :=
    leads_offset fun start => leads_known (leads_compactAssignments_none one hne hplain)
      (leads_commandForm hP hne hplain h fits hlimit)
  have pipeline : Leads (pipeline limit (Grammar.inner limit limit)) (word ++ ' ' :: text) []
      fun p => ∃ f span, p = ⟨[f], span⟩ ∧ IsCommand (String.ofList word) P f := by
    refine leads_offset fun start => leads_bind form fun f hf => ?_
    refine leads_known (leads_repeated_none [] one ?_) (leads_pure ⟨f, _, rfl, hf⟩)
    exact leads_skipSpaces_end (leads_peek (leads_pure rfl))
  have chunk : Leads (chunk limit (Grammar.inner limit limit) none) (word ++ ' ' :: text) []
      (IsUnit (String.ofList word) P) := by
    refine leads_offset fun start => leads_bind (leads_repeated_last [] one (P := fun p =>
      ∃ f span, p = ⟨[f], span⟩ ∧ IsCommand (String.ofList word) P f) ?_) fun pipelines hp => ?_
    · cases word with
      | nil => exact absurd rfl hne
      | cons c word =>
        have ne {d : Char} (hd : isPlainChar d = false) : c ≠ d :=
          isPlainChar_ne (hplain c List.mem_cons_self) hd
        have separator : (isSpaceOrNewline c || c == ';') = false := by
          simp [isSpaceOrNewline, isSpace, ne (show isPlainChar ' ' = false by decide),
            ne (show isPlainChar '\t' = false by decide),
            ne (show isPlainChar '\r' = false by decide),
            ne (show isPlainChar '\n' = false by decide),
            ne (show isPlainChar ';' = false by decide)]
        refine leads_skip separator (ne (by decide)) (leads_peek ?_)
        dsimp only [List.head?_cons]
        rw [if_neg (Option.some_ne_none c).symm, if_neg (by
          rintro (rfl | rfl | rfl) <;> exact absurd rfl (ne (by decide)))]
        refine leads_bind pipeline fun found hfound => leads_skipSpaces_end ?_
        refine leads_then (leads_peek (leads_pure trivial)) fun _ => leads_peek ?_
        exact leads_pure ⟨found, rfl, hfound⟩
    · obtain ⟨_, rfl, f, span, rfl, hf⟩ := hp
      exact leads_span fun span' => leads_pure ⟨f, span, span', rfl, hf⟩
  exact leads_bind chunk fun c hc => leads_peek (leads_pure hc)

end Grammar

end ValueShell
