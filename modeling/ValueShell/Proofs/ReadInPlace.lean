/-
  Primaries are read in place.

  A tree says what its nodes are, and by their spans where they stand.  For a primary, this is what the one
  rule for primaries reads at that place (`Primary.ReadAt`), whatever bracket, form or assignment it is
  part of.  So what is known of that rule is known of every place of a tree where a primary stands.

  `Yields` is partial correctness: as long as the reader stays in the code, what it finds has the property.
  The rules go through the grammar in its order, and the nesting is closed by induction.
-/
import ValueShell.Proofs.ExactSpans

namespace ValueShell

open TextReader Reader

/-- **The primary is what is read where it stands.** -/
def Primary.ReadAt (code : List Char) (limit : Nat) (p : Primary) : Prop :=
  ∃ around depth c c', c.At code ∧ c.offset = p.span.start ∧
    Grammar.primary? limit (Grammar.inner limit depth) around c = .ok (some p, c')

namespace Node

/-- Every primary inside the node is read where it stands. -/
def InPlace (code : List Char) (limit : Nat) (n : Node) : Prop :=
  ∀ p, (primary p).Inside n → p.ReadAt code limit

variable {code : List Char} {limit : Nat}

/-- A node is read in place if what it is made of is, and it itself if it is a primary. -/
theorem inPlace_of_children {n : Node} (self : ∀ p, n = primary p → p.ReadAt code limit)
    (children : ∀ m ∈ n.children, m.InPlace code limit) : n.InPlace code limit := by
  intro p inside
  cases inside with
  | self => exact self p rfl
  | child hm inside => exact children _ hm p inside

/-- Parts that are all of one kind. -/
theorem inPlace_parts {α : Type} {node : α → Node} {parts : List α}
    (h : ∀ a ∈ parts, (node a).InPlace code limit) : ∀ m ∈ parts.map node, m.InPlace code limit := by
  intro m hm
  obtain ⟨a, ha, rfl⟩ := List.mem_map.mp hm
  exact h a ha

end Node

/-! ## Readers that stay in the code -/

/-- The cursor is a place of the code, or past its end. -/
def Cursor.Within (code : List Char) (c : Cursor) : Prop := c.At code ∨ c.rest = []

/-- **What the reader finds has the property**, where it starts in the code. -/
def Reader.Yields {α : Type} (code : List Char) (x : Reader α) (Q : α → Prop) : Prop :=
  ∀ c a c', c.Within code → x c = .ok (a, c') → c'.Within code ∧ Q a

section Rules

variable {α β : Type} {code : List Char} {Q : α → Prop}

/-- To move stays within the code. -/
theorem Cursor.Within.moves {c c' : Cursor} (h : c.Within code) (moves : c.Moves c') :
    c'.Within code := by
  rcases h with here | ended
  · exact .inl (here.moves moves)
  · obtain ⟨text, passes⟩ := moves
    have parts := passes.rest
    rw [ended] at parts
    exact .inr (List.append_eq_nil_iff.mp parts.symm).2

theorem Cursor.Within.next {c : Cursor} (h : c.Within code) : c.next.Within code := by
  cases hc : c.rest.head? with
  | none =>
    obtain ⟨o, rest⟩ := c
    obtain rfl : rest = [] := List.head?_eq_none_iff.mp hc
    exact .inr rfl
  | some ch => exact h.moves (Cursor.passes_next hc).moves

/-- What is returned has the property. -/
theorem Reader.yields_pure {a : α} (h : Q a) : Yields code (pure a) Q := by
  intro c b c' within run
  obtain ⟨rfl, rfl⟩ := run_pure_ok run
  exact ⟨within, h⟩

/-- One reader after the other. -/
theorem Reader.yields_bind {x : Reader β} {k : β → Reader α} {P : β → Prop} (h : Yields code x P)
    (later : ∀ b, P b → Yields code (k b) Q) : Yields code (x >>= k) Q := by
  intro c a c' within run
  obtain ⟨b, c₁, first, second⟩ := run_bind_ok run
  obtain ⟨there, holds⟩ := h c b c₁ within first
  exact later b holds c₁ a c' there second

/-- The same where nothing is asked of the first result. -/
theorem Reader.yields_then {x : Reader β} {k : β → Reader α} (h : Yields code x fun _ => True)
    (later : ∀ b, Yields code (k b) Q) : Yields code (x >>= k) Q := yields_bind h fun b _ => later b

/-- An offset may be any number. -/
theorem yields_offset {k : Nat → Reader α} (later : ∀ o, Yields code (k o) Q) :
    Yields code (offset >>= k) Q := fun c => later c.offset c

/-- What comes next may be any letter. -/
theorem yields_peek {k : Option Char → Reader α} (later : ∀ ch, Yields code (k ch) Q) :
    Yields code (peek? >>= k) Q := fun c => later c.rest.head? c

theorem yields_second {k : Option Char → Reader α} (later : ∀ ch, Yields code (k ch) Q) :
    Yields code (second? >>= k) Q := fun c => later c.rest.tail.head? c

theorem yields_spanFrom {start : Nat} {k : Span → Reader α} (later : ∀ s, Yields code (k s) Q) :
    Yields code (spanFrom start >>= k) Q := fun c => later ⟨start, c.offset⟩ c

theorem yields_advance {k : Unit → Reader α} (later : Yields code (k ()) Q) :
    Yields code (advance >>= k) Q := fun c a c' within => later c.next a c' within.next

/-- A run of letters may be any run. -/
theorem yields_munch {p : Char → Bool} {k : List Char → Reader α}
    (later : ∀ run, Yields code (k run) Q) : Yields code (munch p >>= k) Q := fun c a c' within =>
  later _ _ a c' (within.moves (Cursor.passes_dropWhile p c).moves)

/-- What is skipped is text of the code. -/
theorem yields_skip {x : Reader PUnit} (skips : ∀ c (k : PUnit → Reader α) r, (x >>= k) c = r →
    ∃ c₁, c.Moves c₁ ∧ k ⟨⟩ c₁ = r) {k : PUnit → Reader α} (later : Yields code (k ⟨⟩) Q) :
    Yields code (x >>= k) Q := by
  intro c a c' within run
  obtain ⟨c₁, moves, rest⟩ := skips c k _ run
  exact later c₁ a c' (within.moves moves) rest

theorem yields_skipBlank {k : PUnit → Reader α} (later : Yields code (k ⟨⟩) Q) :
    Yields code (skipBlank >>= k) Q := yields_skip (fun _ _ _ => run_skipBlank) later

theorem yields_skipSeparators {k : PUnit → Reader α} (later : Yields code (k ⟨⟩) Q) :
    Yields code (skipSeparators >>= k) Q := yields_skip (fun _ _ _ => run_skipSeparators) later

theorem yields_skipSpaces {k : PUnit → Reader α} (later : Yields code (k ⟨⟩) Q) :
    Yields code (skipSpaces >>= k) Q := yields_skip (fun _ _ _ => run_skipSpaces) later

theorem yields_skipComment {k : PUnit → Reader α} (later : Yields code (k ⟨⟩) Q) :
    Yields code (skipComment >>= k) Q := yields_skip (fun _ _ _ => run_skipComment) later

theorem yields_atFormEnd {k : Bool → Reader α} (later : ∀ ended, Yields code (k ended) Q) :
    Yields code (atFormEnd >>= k) Q := by
  intro c a c' within run
  obtain ⟨ended, rest⟩ := run_atFormEnd run
  exact later ended c a c' within rest

/-- A reader that fails yields nothing. -/
theorem yields_failAt {problem : ParseProblem} {span : Span} : Yields code (failAt problem span) Q :=
  fun _ _ _ _ run => nomatch run

theorem yields_failFrom {problem : ParseProblem} {start : Nat} :
    Yields code (failFrom start problem) Q := fun _ _ _ _ run => nomatch run

theorem yields_unexpected : Yields code unexpected Q :=
  fun _ _ _ _ run => (unexpected_not_ok run).elim

/-- Either branch yields it. -/
theorem yields_ite {p : Prop} [Decidable p] {x y : Reader α} (yes : Yields code x Q)
    (no : Yields code y Q) : Yields code (if p then x else y) Q := by
  split
  · exact yes
  · exact no

/-- An attempt yields what the reader does, if anything. -/
theorem yields_attempt {x : Reader (Option α)} (h : Yields code x fun found => ∀ a ∈ found, Q a) :
    Yields code (attempt x) fun found => ∀ a ∈ found, Q a := by
  intro c found c' within run
  rcases attempt_ok run with ⟨a, rfl, tried⟩ | ⟨rfl, rfl⟩
  · exact h c _ c' within tried
  · exact ⟨within, nofun⟩

/-- The items of a round. -/
def Round.Holds (Q : α → Prop) : Round α → Prop
  | .stop => True
  | .last a | .more a => Q a

/-- A repetition yields a list, if each round yields an item. -/
theorem Reader.yields_repeated {limit : Nat} {round : Reader (Round α)} (h : Yields code round (Round.Holds Q)) :
    Yields code (repeated limit round) fun found => ∀ a ∈ found, Q a := by
  intro c found c' within run
  refine repeated_ok (P := fun c found c' => c.Within code → c'.Within code ∧ ∀ a ∈ found, Q a) ?_ run within
  intro c r c₁ run
  cases r with
  | stop => exact fun within => ⟨(h c _ c₁ within run).1, nofun⟩
  | last a =>
    intro within
    obtain ⟨there, holds⟩ := h c _ c₁ within run
    exact ⟨there, List.forall_mem_singleton.mpr holds⟩
  | more a =>
    intro later c₂ rest within
    obtain ⟨there, holds⟩ := h c _ c₁ within run
    obtain ⟨past, others⟩ := rest there
    exact ⟨past, List.forall_mem_cons.mpr ⟨holds, others⟩⟩

end Rules

/-! ## Strings and names -/

section Strings

variable {code : List Char}

/-- Of texts nothing is asked: they have no primaries inside. -/
theorem yields_codePoint {start base digits acc : Nat} :
    Yields code (codePoint start base digits acc) fun _ => True := by
  induction digits generalizing acc with
  | zero => exact yields_pure trivial
  | succ digits ih =>
    refine yields_peek fun ch => ?_
    split
    · exact yields_advance ih
    · exact yields_failFrom

theorem yields_escape : Yields code escape fun _ => True := by
  refine yields_offset fun start => yields_advance (yields_peek fun ch => ?_)
  dsimp only
  split
  iterate 8 exact yields_advance (yields_pure trivial)
  · exact yields_advance yields_codePoint
  · split
    · exact yields_codePoint
    · exact yields_advance yields_failFrom

theorem yields_singleQuoted (limit : Nat) : Yields code (singleQuoted limit) fun _ => True := by
  refine yields_offset fun start => yields_advance ?_
  refine yields_bind (yields_repeated (Q := fun _ => True) (yields_peek fun ch => ?_))
    fun _ _ => yields_pure trivial
  split
  · exact yields_failFrom
  · refine yields_advance (yields_peek fun ch => ?_)
    split
    · exact yields_advance (yields_pure trivial)
    · exact yields_pure trivial
  · exact yields_advance (yields_pure trivial)

theorem yields_doubleQuoted (limit : Nat) : Yields code (doubleQuoted limit) fun _ => True := by
  refine yields_offset fun start => yields_advance ?_
  refine yields_bind (yields_repeated (Q := fun _ => True) (yields_peek fun ch => ?_))
    fun _ _ => yields_pure trivial
  split
  · exact yields_failFrom
  · exact yields_advance (yields_pure trivial)
  · exact yields_then yields_escape fun _ => yields_pure trivial
  · exact yields_advance (yields_pure trivial)

theorem yields_closeWith {closer : Char} {what : Construct} {start : Nat} :
    Yields code (closeWith closer what start) fun _ => True := by
  refine yields_peek fun ch => ?_
  split
  · exact yields_advance (k := pure) (yields_pure trivial)
  · exact yields_failFrom

theorem yields_variableName : Yields code Grammar.variableName fun _ => True := by
  have name : ∀ {start : Nat} (text : List Char → String), Yields code
      (munch Grammar.isVariableChar >>= fun name =>
        if name.isEmpty then failFrom start .emptyVariableName else return text name) fun _ => True := by
    intro start text
    refine yields_munch fun run => ?_
    split
    · exact yields_failFrom
    · exact yields_pure trivial
  refine yields_offset fun start => yields_advance (yields_peek fun ch => ?_)
  dsimp only
  split
  · exact yields_advance (name fun rest => String.ofList ('@' :: rest))
  · exact name String.ofList

end Strings

/-! ## The grammar -/

section Grammar

open Grammar Node

/-- What may stand inside a delimiter, read in place. -/
structure Grammar.Inner.InPlace (code : List Char) (limit : Nat) (i : Inner) : Prop where
  chunk : ∀ closer, Yields code (i.chunk closer) fun found => (Node.chunk found).InPlace code limit
  compound : ∀ around, Yields code (i.compound around) fun found =>
    (Node.compound found).InPlace code limit

section

variable {code : List Char} {limit : Nat}

/-- A node that is no primary and whose parts are all of one kind. -/
theorem inPlace_node {α : Type} {n : Node} {node : α → Node} {parts : List α}
    (children : n.children = parts.map node) (other : ∀ p, n ≠ .primary p)
    (h : ∀ a ∈ parts, (node a).InPlace code limit) : n.InPlace code limit := by
  refine inPlace_of_children (fun p same => absurd same (other p)) ?_
  rw [children]
  exact inPlace_parts h

section

variable {i : Inner} (hi : i.InPlace code limit)
include hi

/-- The words between brackets are in place. -/
theorem yields_items (closer : Char) (what : Construct) :
    Yields code (items limit i closer what) fun found => ∀ c ∈ found, (compound c).InPlace code limit := by
  refine yields_offset fun start => yields_repeated (yields_skipBlank (yields_peek fun ch => ?_))
  split
  · exact yields_failFrom
  · split
    · exact yields_advance (yields_pure trivial)
    · refine yields_bind (hi.compound _) fun item inPlace => ?_
      split
      · exact yields_unexpected
      · exact yields_pure inPlace

/-- The body of a lambda is read by the inner readers, for which this is known already. -/
theorem yields_lambdaBody :
    Yields code (lambdaBody i) fun body => (chunk body).InPlace code limit := by
  refine yields_offset fun start => yields_advance (yields_bind (hi.chunk _) fun body inPlace => ?_)
  exact yields_then yields_closeWith fun _ => yields_pure inPlace

/-- The pairs of a map. -/
theorem yields_mapPairs (start : Nat) :
    Yields code (mapPairs limit i start) fun found => ∀ p ∈ found, (pair p).InPlace code limit := by
  refine yields_repeated (yields_skipBlank (yields_peek fun ch => ?_))
  split
  · exact yields_failFrom
  · exact yields_advance (yields_pure trivial)
  · refine yields_offset fun pairStart => yields_advance (yields_peek fun ch => ?_)
    split
    · exact yields_advance (yields_pure trivial)
    · refine yields_bind (hi.compound _) fun key keyInPlace => yields_peek fun sign => ?_
      split
      · exact yields_failFrom
      · refine yields_advance (yields_bind (hi.compound _) fun value valueInPlace => ?_)
        refine yields_spanFrom fun s => yields_pure ?_
        have both : ∀ c ∈ [key, value], (compound c).InPlace code limit := by
          simp only [List.mem_cons, List.not_mem_nil, or_false, forall_eq_or_imp, forall_eq]
          exact ⟨keyInPlace, valueInPlace⟩
        exact inPlace_node (n := pair ⟨key, value, s⟩) rfl nofun both
  · exact yields_unexpected

omit hi in
theorem yields_params (found : List Compound) : Yields code (params found) fun _ => True := by
  induction found with
  | nil => exact yields_pure trivial
  | cons item found ih =>
    unfold params
    split
    · exact yields_then ih fun _ => yields_pure trivial
    · exact yields_failAt

/-- What a primary that starts with a bracket is made of. -/
theorem yields_bracketed (start : Nat) : Yields code (bracketed limit i start) fun found =>
    ∀ m ∈ (primary found).children, m.InPlace code limit := by
  refine yields_advance (yields_skipBlank (yields_peek fun ch => ?_))
  split
  · refine yields_bind (yields_mapPairs hi start) fun pairs inPlace => ?_
    exact yields_spanFrom fun s => yields_pure (inPlace_parts inPlace)
  · refine yields_bind (yields_items hi _ _) fun found inPlace => yields_peek fun ch => ?_
    split
    · refine yields_then (yields_params found) fun names => ?_
      refine yields_bind (yields_lambdaBody hi) fun body bodyInPlace => ?_
      refine yields_spanFrom fun s => yields_pure fun m hm => ?_
      rcases List.mem_append.mp hm with named | rest
      · obtain ⟨name, -, rfl⟩ := List.mem_map.mp named
        exact inPlace_of_children nofun nofun
      · obtain rfl := List.mem_singleton.mp rest
        exact bodyInPlace
    · exact yields_spanFrom fun s => yields_pure (inPlace_parts inPlace)

/-- The words between braces. -/
theorem yields_bracedItems : Yields code (bracedItems limit i) fun found =>
    ∀ c ∈ found, (compound c).InPlace code limit := by
  refine yields_offset fun start => yields_advance (yields_repeated (yields_skipBlank ?_))
  refine yields_bind (hi.compound _) fun item inPlace => yields_skipBlank (yields_peek fun ch => ?_)
  split
  · exact yields_advance (yields_pure inPlace)
  · exact yields_advance (yields_pure inPlace)
  · exact yields_failFrom
  · exact yields_unexpected

/-- What a primary is made of. -/
theorem yields_primary?_children (around : Surroundings) :
    Yields code (primary? limit i around) fun found =>
      ∀ p ∈ found, ∀ m ∈ (primary p).children, m.InPlace code limit := by
  have leaf : ∀ {x : Reader String} {start : Nat} (node : String → Span → Primary),
      (∀ text s, (primary (node text s)).children = []) → (Yields code x fun _ => True) →
      Yields code (x >>= fun text => spanFrom start >>= fun s => pure (some (node text s)))
        fun found => ∀ p ∈ found, ∀ m ∈ (primary p).children, m.InPlace code limit := by
    intro x start node none hx
    refine yields_then hx fun text => yields_spanFrom fun s => yields_pure ?_
    rintro p same m hm
    obtain rfl := Option.some.inj same
    rw [none] at hm
    exact nomatch hm
  have found : ∀ {p : Primary}, (∀ m ∈ (primary p).children, m.InPlace code limit) →
      ∀ q ∈ some p, ∀ m ∈ (primary q).children, m.InPlace code limit := by
    intro p h q same
    obtain rfl := Option.some.inj same
    exact h
  refine yields_offset fun start => yields_peek fun ch => ?_
  split
  · exact yields_pure nofun
  · exact leaf .singleQuoted (fun _ _ => rfl) (yields_singleQuoted limit)
  · exact leaf .doubleQuoted (fun _ _ => rfl) (yields_doubleQuoted limit)
  · exact leaf .reference (fun _ _ => rfl) yields_variableName
  · refine yields_advance (yields_bind (hi.chunk _) fun chunk inPlace => ?_)
    refine yields_then yields_closeWith fun _ => yields_spanFrom fun s => yields_pure (found ?_)
    exact List.forall_mem_singleton.mpr inPlace
  · exact yields_bind (yields_bracketed hi start) fun p inPlace => yields_pure (found inPlace)
  · refine yields_second fun ch => ?_
    split
    · refine yields_bind (yields_lambdaBody hi) fun body inPlace => ?_
      refine yields_spanFrom fun s => yields_pure (found ?_)
      exact List.forall_mem_singleton.mpr inPlace
    · refine yields_bind (yields_bracedItems hi) fun items inPlace => ?_
      exact yields_spanFrom fun s => yields_pure (found (inPlace_parts inPlace))
  · refine yields_offset fun start => yields_munch fun run => ?_
    split
    · exact yields_pure nofun
    · exact yields_spanFrom fun s => yields_pure (found nofun)

end

/-! Now the inside is what stands at some depth. -/

variable {depth : Nat} (hi : (inner limit depth).InPlace code limit)
include hi

/-- **A primary is read where its span says.** -/
theorem yields_primary? (around : Surroundings) : Yields code (primary? limit (inner limit depth) around)
    fun found => ∀ p ∈ found, (primary p).InPlace code limit := by
  intro c found c' within run
  obtain ⟨there, children⟩ := yields_primary?_children hi around c found c' within run
  refine ⟨there, ?_⟩
  rintro p rfl
  rcases within with here | ended
  · refine inPlace_of_children (fun q same => ?_) (children p rfl)
    obtain rfl := Node.primary.inj same
    have covers : Node.Found code c (some (.primary p)) c' :=
      primary?_ok (inner_exact code limit depth) here run
    exact ⟨around, depth, c, c', here, (congrArg Span.start covers.span).symm, run⟩
  · -- at the end of the code nothing is read
    obtain ⟨o, rest⟩ := c
    obtain rfl : rest = [] := ended
    exact nomatch run

/-- An index. -/
theorem yields_bracket : Yields code (Grammar.bracket limit (inner limit depth)) fun found =>
    (bracket found).InPlace code limit := by
  refine yields_offset fun start => yields_advance (yields_bind (yields_items hi _ _) fun found inPlace => ?_)
  exact yields_spanFrom fun s => yields_pure (inPlace_node (n := bracket ⟨found, s⟩) rfl nofun inPlace)

/-- A primary with its indices: here the primary is the one that is read at this place. -/
theorem yields_indexing? (around : Surroundings) :
    Yields code (indexing? limit (inner limit depth) around) fun found =>
      ∀ a ∈ found, (indexing a).InPlace code limit := by
  refine yields_offset fun start => yields_bind (yields_primary? hi around) fun found inPlace => ?_
  cases found with
  | none => exact yields_pure nofun
  | some head =>
    refine yields_bind (yields_repeated (Q := fun b => (bracket b).InPlace code limit)
      (yields_peek fun ch => ?_)) fun brackets bracketsInPlace => ?_
    · split
      · exact yields_bind (yields_bracket hi) fun _ inPlace => yields_pure inPlace
      · exact yields_pure trivial
    · refine yields_spanFrom fun s => yields_pure ?_
      rintro a same
      obtain rfl := Option.some.inj same
      refine inPlace_of_children nofun fun m hm => ?_
      rcases List.mem_cons.mp hm with rfl | hm
      · exact inPlace head rfl
      · exact inPlace_parts bracketsInPlace m hm

/-- A word. -/
theorem yields_compound (around : Surroundings) :
    Yields code (Grammar.compound limit (inner limit depth) around) fun found =>
      (compound found).InPlace code limit := by
  refine yields_offset fun start => yields_bind
    (yields_repeated (Q := fun a => (indexing a).InPlace code limit) ?_) fun found inPlace => ?_
  · refine yields_bind (yields_indexing? hi around) fun found inPlace => ?_
    cases found with
    | none => exact yields_pure trivial
    | some found => exact yields_pure (inPlace found rfl)
  · exact yields_spanFrom fun s => yields_pure (inPlace_node (n := compound ⟨found, s⟩) rfl nofun inPlace)

/-! ## Forms in place -/

omit hi in
/-- An assignment of which both sides are in place. -/
theorem inPlace_assignment {left : Indexing} {right : List Compound} {s : Span}
    (hl : (indexing left).InPlace code limit) (hr : ∀ c ∈ right, (compound c).InPlace code limit) :
    (assignment ⟨left, right, s⟩).InPlace code limit := by
  refine inPlace_of_children nofun fun m hm => ?_
  rcases List.mem_cons.mp hm with rfl | hm
  · exact hl
  · exact inPlace_parts hr m hm

/-- An assignment without spaces. -/
theorem yields_compactAssignment? :
    Yields code (compactAssignment? limit (inner limit depth)) fun found =>
      ∀ a ∈ found, (assignment a).InPlace code limit := by
  refine yields_offset fun start => yields_peek fun ch => ?_
  split
  · exact yields_pure nofun
  · refine yields_second fun second => ?_
    split
    · exact yields_pure nofun
    · refine yields_bind (yields_indexing? hi .target) fun found inPlace => ?_
      cases found with
      | none => exact yields_pure nofun
      | some left =>
        refine yields_peek fun sign => yields_ite (yields_pure nofun) ?_
        refine yields_advance (yields_bind (yields_compound hi _) fun right rightInPlace => ?_)
        refine yields_spanFrom fun s => yields_pure ?_
        rintro a same
        obtain rfl := Option.some.inj same
        exact inPlace_assignment (inPlace left rfl) (List.forall_mem_singleton.mpr rightInPlace)

/-- The assignments at the start of a form. -/
theorem yields_compactAssignments :
    Yields code (compactAssignments limit (inner limit depth)) fun found =>
      ∀ a ∈ found, (assignment a).InPlace code limit := by
  refine yields_bind (yields_repeated (Q := fun a => (assignment a).InPlace code limit) ?_)
    fun found inPlace => ?_
  · refine yields_bind (yields_attempt (yields_compactAssignment? hi)) fun found inPlace => ?_
    cases found with
    | none => exact yields_pure trivial
    | some a =>
      refine yields_skipSpaces (yields_atFormEnd fun ended => ?_)
      exact yields_ite (yields_pure (inPlace a rfl)) (yields_pure (inPlace a rfl))
  · refine yields_ite (yields_pure nofun) (yields_skipSpaces (yields_atFormEnd fun ended => ?_))
    exact yields_ite (yields_pure inPlace) (yields_offset fun _ => yields_failAt)

/-- A command, or an assignment with a lone equals sign; its words become parts of the tree as they are. -/
theorem yields_commandForm : Yields code (commandForm limit (inner limit depth)) fun found =>
    (form found).InPlace code limit := by
  refine yields_offset fun start => yields_bind (yields_compound hi _) fun head headInPlace => ?_
  refine yields_ite yields_unexpected ?_
  refine yields_bind (yields_repeated (Q := fun c => (compound c).InPlace code limit) ?_)
    fun args inPlace => ?_
  · refine yields_skipSpaces (yields_atFormEnd fun ended => yields_ite (yields_pure trivial) ?_)
    refine yields_bind (yields_compound hi _) fun arg argInPlace => ?_
    exact yields_ite yields_unexpected (yields_pure argInPlace)
  · have command : ∀ s, (form (.command head args s)).InPlace code limit := fun s =>
      inPlace_node (n := form (.command head args s)) rfl nofun
        (List.forall_mem_cons.mpr ⟨headInPlace, inPlace⟩)
    dsimp only
    split
    · next second values =>
      refine yields_ite ?_ (yields_pure (command _))
      split
      · next left only =>
        refine yields_pure ?_
        have leftInPlace : (indexing left).InPlace code limit := fun p inside =>
          headInPlace p (.child (by
            show indexing left ∈ head.indexings.map indexing
            rw [only]
            exact List.mem_cons_self) inside)
        have assigned := inPlace_assignment leftInPlace
          (s := spanTo start head.span.stop ((second :: values).map Compound.span))
          (List.forall_mem_cons.mp inPlace).2
        exact inPlace_node (n := form (.assign _ _)) rfl nofun (List.forall_mem_singleton.mpr assigned)
      · exact yields_failAt
    · exact yields_pure (command _)

theorem yields_form : Yields code (Grammar.form limit (inner limit depth)) fun found =>
    (form found).InPlace code limit := by
  refine yields_offset fun start => yields_bind (yields_compactAssignments hi) fun found inPlace => ?_
  cases found with
  | nil => exact yields_commandForm hi
  | cons first later => exact yields_pure (inPlace_node (n := form (.assign _ _)) rfl nofun inPlace)

/-- A pipeline. -/
theorem yields_pipeline : Yields code (Grammar.pipeline limit (inner limit depth)) fun found =>
    (pipeline found).InPlace code limit := by
  refine yields_offset fun start => yields_bind (yields_form hi) fun first firstInPlace => ?_
  refine yields_bind (yields_repeated (Q := fun f => (form f).InPlace code limit) ?_)
    fun others inPlace => yields_pure ?_
  · refine yields_skipSpaces (yields_peek fun ch => yields_ite ?_ (yields_pure trivial))
    exact yields_advance (yields_skipBlank (yields_bind (yields_form hi) fun _ h => yields_pure h))
  · exact inPlace_node (n := pipeline ⟨first :: others, _⟩) rfl nofun
      (List.forall_mem_cons.mpr ⟨firstInPlace, inPlace⟩)

/-- **Code**, at any depth. -/
theorem yields_chunk (closer : Option Char) :
    Yields code (Grammar.chunk limit (inner limit depth) closer) fun found =>
      (chunk found).InPlace code limit := by
  refine yields_offset fun start => yields_bind
    (yields_repeated (Q := fun p => (pipeline p).InPlace code limit) ?_) fun found inPlace => ?_
  · refine yields_skipSeparators (yields_peek fun ch => ?_)
    split
    · exact yields_pure trivial
    · refine yields_ite (yields_pure trivial) (yields_ite yields_unexpected ?_)
      refine yields_bind (yields_pipeline hi) fun found inPlace => ?_
      refine yields_skipSpaces (yields_skipComment (yields_peek fun ch => ?_))
      split
      · exact yields_pure inPlace
      · exact yields_ite (yields_pure inPlace) (yields_ite (yields_pure inPlace) yields_unexpected)
  · exact yields_spanFrom fun s => yields_pure (inPlace_node (n := chunk ⟨found, s⟩) rfl nofun inPlace)

end

/-- Every depth reads in place. -/
theorem inner_inPlace (code : List Char) (limit depth : Nat) :
    (inner limit depth).InPlace code limit := by
  induction depth with
  | zero => exact ⟨fun _ _ _ _ _ run => (nomatch run), fun _ _ _ _ _ run => (nomatch run)⟩
  | succ depth ih => exact ⟨yields_chunk ih, yields_compound ih⟩

end Grammar

/-- **Every primary of a text is what is read where it stands.** -/
theorem readChunk_inPlace {code : String} {found : Chunk} (h : readChunk code = .ok found) :
    (Node.chunk found).InPlace code.toList (code.toList.length + 1) := by
  obtain ⟨-, c, hunit⟩ := readChunk_ok_iff.mp h
  have start : (Cursor.start code.toList).Within code.toList := .inl ⟨[], rfl, rfl⟩
  have whole : Yields code.toList (Grammar.unit (code.toList.length + 1)) fun found =>
      (Node.chunk found).InPlace code.toList (code.toList.length + 1) := by
    refine yields_bind (yields_chunk (inner_inPlace _ _ _) none) fun found inPlace => ?_
    exact yields_peek fun ch => yields_ite yields_unexpected (yields_pure inPlace)
  exact (whole _ _ _ start hunit).2

end ValueShell
