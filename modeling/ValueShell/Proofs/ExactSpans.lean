/-
  The spans of a syntax tree are exact.

  A node is read between two cursors, and its span says which.  So everything that is true of spans comes
  from one fact about cursors: the cursor only moves forward, and past whole characters.  `Cursor.At` says
  that a cursor is a place of the code, and `Passes` keeps the text between two of them.

  What is to be shown of every node is `Node.Exact`: its span is a window of the code, the text in the window is
  what the node says, and its children lie in it one after the other.  `Node.Whole` is the same of a node with all
  that is inside it.  For each rule of the grammar there is one lemma here: if what stands inside delimiters
  is read into whole nodes (`Inner.Exact`), then so is what the rule reads.  The nesting is closed by
  induction on its depth.
-/
import ValueShell.Proofs.ReaderOffsets
import ValueShell.Syntax.Node

namespace ValueShell

/-! ## Windows of the code -/

/-- The cursor is a place of the code. -/
def Cursor.At (code : List Char) (c : Cursor) : Prop :=
  ∃ before, code = before ++ c.rest ∧ c.offset = byteLength before

namespace Cursor.At

variable {code text : List Char} {c c' : Cursor}

/-- The cursor is at a boundary between characters. -/
theorem boundary (h : c.At code) : IsBoundary code c.offset := by
  obtain ⟨before, hcode, hoffset⟩ := h
  exact ⟨before, c.rest, hcode, hoffset⟩

/-- Past text that is there, it is in the code again. -/
theorem passes (h : c.At code) (p : c.Passes text c') : c'.At code := by
  obtain ⟨before, hcode, hoffset⟩ := h
  refine ⟨before ++ text, ?_, ?_⟩
  · rw [hcode, p.rest, List.append_assoc]
  · rw [p.offset, hoffset, byteLength_append]

theorem moves (h : c.At code) (m : c.Moves c') : c'.At code := by
  obtain ⟨text, p⟩ := m
  exact h.passes p

/-- What was passed is the slice between the two cursors. -/
theorem slice (h : c.At code) (p : c.Passes text c') :
    slice? code c.offset c'.offset = some text := by
  obtain ⟨before, hcode, hoffset⟩ := h
  have whole : code = before ++ text ++ c'.rest := by rw [hcode, p.rest, List.append_assoc]
  rw [whole, p.offset, hoffset, slice?_append]

end Cursor.At

/-- A boundary is within the code. -/
theorem IsBoundary.le {code : List Char} {n : Nat} (h : IsBoundary code n) :
    n ≤ byteLength code := by
  obtain ⟨before, after, rfl, rfl⟩ := h
  rw [byteLength_append]
  omega

/-- Between two boundaries there is text. -/
theorem IsBoundary.slice {code : List Char} {start stop : Nat} (hs : IsBoundary code start)
    (he : IsBoundary code stop) (le : start ≤ stop) : ∃ text, slice? code start stop = some text := by
  obtain ⟨before, after, rfl, rfl⟩ := hs
  obtain ⟨before', after', heq, rfl⟩ := he
  rcases List.append_eq_append_iff.mp heq with ⟨text, rfl, rfl⟩ | ⟨text, rfl, rfl⟩
  · exact ⟨text, by rw [byteLength_append, ← List.append_assoc, slice?_append]⟩
  · -- the part before the end is no shorter, so nothing is between the two
    rw [byteLength_append] at le
    have none : byteLength text = 0 := by omega
    obtain rfl := byteLength_eq_zero none
    refine ⟨[], ?_⟩
    have found := slice?_append before' [] after
    simpa [byteLength] using found

/-! ## Nodes in a row -/

/-- **One after the other**, between the two offsets. -/
def Span.InOrder (start stop : Nat) : List Span → Prop
  | [] => start ≤ stop
  | s :: later => start ≤ s.start ∧ s.start ≤ s.stop ∧ InOrder s.stop stop later

namespace Span.InOrder

variable {start middle stop : Nat} {spans later : List Span}

/-- Spans in order do not end before they start. -/
theorem le (h : InOrder start stop spans) : start ≤ stop := by
  induction spans generalizing start with
  | nil => exact h
  | cons s later ih =>
    obtain ⟨hs, hle, hlater⟩ := h
    have := ih hlater
    omega

/-- Two rows of spans, one after the other. -/
theorem append (h : InOrder start middle spans) (h' : InOrder middle stop later) :
    InOrder start stop (spans ++ later) := by
  induction spans generalizing start with
  | nil =>
    cases later with
    | nil => exact Nat.le_trans h h'
    | cons s later => exact ⟨Nat.le_trans h h'.1, h'.2⟩
  | cons s spans ih => exact ⟨h.1, h.2.1, ih h.2.2⟩

/-- In a wider window they are still in order. -/
theorem widen {start' stop' : Nat} (h : InOrder start stop spans) (hs : start' ≤ start)
    (he : stop ≤ stop') : InOrder start' stop' spans := by
  induction spans generalizing start start' with
  | nil =>
    have : start ≤ stop := h
    show start' ≤ stop'
    omega
  | cons s spans ih => exact ⟨Nat.le_trans hs h.1, h.2.1, ih h.2.2 (Nat.le_refl _)⟩

end Span.InOrder

/-! ## Exact nodes -/

/-- The text starts and ends with its own delimiters. -/
def Delimited (opening closing : Char) (text : List Char) : Prop :=
  ∃ inner, text = opening :: inner ++ [closing]

namespace Node

/-- **What a node has to do with the text that it was read from.**  A bareword and a parameter are their
text, and so is all that is nothing but a bareword; a variable is its text without the dollar sign; and what is
written in delimiters starts and ends with them. -/
def ReadFrom (text : List Char) : Node → Prop
  | primary (.bareword word _) => text = word.toList
  | primary (.reference name _) => text = '$' :: name.toList
  | param p => text = p.name.toList
  | primary (.singleQuoted ..) => Delimited '\'' '\'' text
  | primary (.doubleQuoted ..) => Delimited '"' '"' text
  | primary (.capture ..) => Delimited '(' ')' text
  | primary (.list ..) | primary (.map ..) | bracket _ => Delimited '[' ']' text
  | primary (.lambda params ..) =>
    Delimited '[' '}' text ∨ (params = [] ∧ Delimited '{' '}' text)
  | indexing i => i.brackets = [] → ∀ word, i.head.bareword? = some word → text = word.toList
  | compound c => ∀ word, c.bareword? = some word → text = word.toList
  | primary (.braced ..) | chunk _ | pipeline _ | form _ | assignment _ | pair _ => True

/-- **An exact node**: its span is a window of the code between two character boundaries, its children lie in
the window in source order and do not overlap, and the text in the window is what the node was read from. -/
structure Exact (code : List Char) (n : Node) : Prop where
  ordered : n.span.start ≤ n.span.stop
  inside : n.span.stop ≤ byteLength code
  starts : IsBoundary code n.span.start
  stops : IsBoundary code n.span.stop
  nested : Span.InOrder n.span.start n.span.stop (n.children.map span)
  text : ∃ text, slice? code n.span.start n.span.stop = some text ∧ n.ReadFrom text

/-- The node is exact, with all that is inside it. -/
def Whole (code : List Char) (n : Node) : Prop := ∀ m, Inside m n → m.Exact code

variable {code text : List Char} {n : Node} {c c' : Cursor}

/-- A node that is whole is exact, -/
theorem Whole.exact (h : n.Whole code) : n.Exact code := h n .self

/-- and so are its children. -/
theorem Whole.child {m : Node} (h : n.Whole code) (hm : m ∈ n.children) : m.Whole code :=
  fun k hk => h k (.child hm hk)

/-- A node is whole if it is exact and its children are whole. -/
theorem Exact.whole (h : n.Exact code) (children : ∀ m ∈ n.children, m.Whole code) :
    n.Whole code := by
  intro m inside
  cases inside with
  | self => exact h
  | child hm inside => exact children _ hm m inside

/-- The spans of parts that are all of one kind. -/
theorem spans_map {α : Type} (node : α → Node) (spanOf : α → Span)
    (same : ∀ a, (node a).span = spanOf a) (parts : List α) :
    (parts.map node).map span = parts.map spanOf := by
  rw [List.map_map]
  exact List.map_congr_left fun a _ => same a

/-- Whole nodes, one after the other. -/
structure Row (code : List Char) (start stop : Nat) (nodes : List Node) : Prop where
  order : Span.InOrder start stop (nodes.map span)
  whole : ∀ n ∈ nodes, n.Whole code

theorem Row.nil {start stop : Nat} (h : start ≤ stop) : Row code start stop [] :=
  ⟨h, nofun⟩

/-- One node more in front of a row. -/
theorem Row.cons {start stop : Nat} {later : List Node} (h : n.Whole code)
    (hs : start ≤ n.span.start) (rest : Row code n.span.stop stop later) :
    Row code start stop (n :: later) := by
  refine ⟨⟨hs, h.exact.ordered, rest.order⟩, fun m hm => ?_⟩
  rcases List.mem_cons.mp hm with rfl | hm
  · exact h
  · exact rest.whole m hm

theorem Row.widen {start stop start' stop' : Nat} {nodes : List Node} (h : Row code start stop nodes)
    (hs : start' ≤ start) (he : stop ≤ stop') : Row code start' stop' nodes :=
  ⟨h.order.widen hs he, h.whole⟩

/-- Two rows, one after the other. -/
theorem Row.append {start middle stop : Nat} {nodes later : List Node}
    (h : Row code start middle nodes) (h' : Row code middle stop later) :
    Row code start stop (nodes ++ later) := by
  refine ⟨?_, fun n hn => ?_⟩
  · rw [List.map_append]
    exact h.order.append h'.order
  · rcases List.mem_append.mp hn with hn | hn
    · exact h.whole n hn
    · exact h'.whole n hn

/-- A row stops by where its last node stops. -/
theorem Row.upToLast {start stop : Nat} {nodes : List Node} (h : Row code start stop nodes)
    (hs : IsBoundary code start) :
    let last := ((nodes.map span).getLast?.map Span.stop).getD start
    Row code start last nodes ∧ IsBoundary code last ∧ last ≤ stop := by
  induction nodes generalizing start with
  | nil => exact ⟨.nil (Nat.le_refl _), hs, h.order⟩
  | cons n later ih =>
    have first : n.Whole code := h.whole n List.mem_cons_self
    have rest : Row code n.span.stop stop later :=
      ⟨h.order.2.2, fun m hm => h.whole m (List.mem_cons_of_mem _ hm)⟩
    obtain ⟨row, boundary, le⟩ := ih rest first.exact.stops
    have same : ((((n :: later).map span).getLast?.map Span.stop).getD start) =
        (((later.map span).getLast?.map Span.stop).getD n.span.stop) := by
      rw [List.map_cons, List.getLast?_cons]
      cases (later.map span).getLast? <;> rfl
    rw [same]
    exact ⟨.cons first h.order.1 row, boundary, le⟩

/-- **A node read between two cursors** from the text there, made of a row of whole nodes. -/
theorem whole_of_passes (here : c.At code) (p : c.Passes text c')
    (hspan : n.span = ⟨c.offset, c'.offset⟩) (row : Row code c.offset c'.offset n.children)
    (read : n.ReadFrom text) : n.Whole code := by
  have self : n.Exact code := by
    constructor
    · rw [hspan]
      exact p.moves.le
    · rw [hspan]
      exact (here.passes p).boundary.le
    · rw [hspan]
      exact here.boundary
    · rw [hspan]
      exact (here.passes p).boundary
    · rw [hspan]
      exact row.order
    · rw [hspan]
      exact ⟨text, here.slice p, read⟩
  exact self.whole row.whole

/-- **A node between two boundaries** of the code, made of a row of whole nodes. -/
theorem whole_of_row (starts : IsBoundary code n.span.start) (stops : IsBoundary code n.span.stop)
    (row : Row code n.span.start n.span.stop n.children) (read : ∀ text, n.ReadFrom text) :
    n.Whole code := by
  have le : n.span.start ≤ n.span.stop := row.order.le
  obtain ⟨text, found⟩ := starts.slice stops le
  have self : n.Exact code := ⟨le, stops.le, starts, stops, row.order, text, found, read text⟩
  exact self.whole row.whole

/-- **Read between two cursors**: whole, and with the span that the cursors say. -/
structure Covers (code : List Char) (c : Cursor) (n : Node) (c' : Cursor) : Prop where
  moves : c.Moves c'
  span : n.span = ⟨c.offset, c'.offset⟩
  whole : n.Whole code

/-- A node from one cursor to another, in front of what comes after the second. -/
theorem Covers.cons_row {later : List Node} {stop : Nat} (h : Covers code c n c')
    (rest : Row code c'.offset stop later) : Row code c.offset stop (n :: later) := by
  refine Row.cons h.whole (Nat.le_of_eq ?_) ?_
  · rw [h.span]
  · rw [h.span]
    exact rest

/-- Read between two cursors, where it may end before the later of them. -/
structure Lies (code : List Char) (c : Cursor) (n : Node) (c' : Cursor) : Prop where
  moves : c.Moves c'
  starts : n.span.start = c.offset
  stops : n.span.stop ≤ c'.offset
  whole : n.Whole code

/-- The same where blanks follow the node. -/
theorem Lies.cons_row {later : List Node} {stop : Nat} (h : Lies code c n c')
    (rest : Row code c'.offset stop later) : Row code c.offset stop (n :: later) := by
  refine Row.cons h.whole (Nat.le_of_eq ?_) (rest.widen h.stops (Nat.le_refl _))
  exact h.starts.symm

end Node

/-! ## Names and strings -/

open TextReader Reader Grammar

section Strings

variable {c c' : Cursor}

/-- The text of a variable is all that was passed but the dollar sign. -/
theorem variableName_ok {name : String} (hc : c.rest.head? = some '$')
    (h : variableName c = .ok (name, c')) : c.Passes ('$' :: name.toList) c' := by
  have dollar := Cursor.passes_next hc
  unfold variableName at h
  obtain ⟨next, hnext, h⟩ := run_peek (run_advance (run_offset h))
  dsimp only at h
  split at h
  · next marked =>
    have sign := Cursor.passes_next (hnext.trans (eq_of_beq marked))
    replace h := run_munch (run_advance h)
    have word := Cursor.passes_dropWhile isVariableChar c.next.next
    split at h
    · exact nomatch h
    · obtain ⟨rfl, rfl⟩ := run_pure_ok h
      rw [String.toList_ofList]
      exact dollar.trans (sign.trans word)
  · next marked =>
    replace h := run_munch h
    have word := Cursor.passes_dropWhile isVariableChar c.next
    split at h
    · exact nomatch h
    · obtain ⟨rfl, rfl⟩ := run_pure_ok h
      rw [String.toList_ofList]
      exact dollar.trans word

/-- The digits of a code point are in the code. -/
theorem codePoint_moves {start base digits acc : Nat} {ch : Char}
    (h : codePoint start base digits acc c = .ok (ch, c')) : c.Moves c' := by
  induction digits generalizing acc c with
  | zero =>
    obtain ⟨-, rfl⟩ := run_pure_ok h
    exact .refl c
  | succ digits ih =>
    obtain ⟨next, hnext, h⟩ := run_peek h
    generalize digit : next.bind (Numeral.digit? base) = d at h
    split at h
    · next d =>
      -- a digit is a character that is there
      obtain ⟨ch, rfl, -⟩ := Option.bind_eq_some_iff.mp digit
      exact (Cursor.passes_next hnext).moves.trans (ih (run_advance h))
    · exact nomatch h

/-- An escape is. -/
theorem escape_moves {ch : Char} (hc : c.rest.head? = some '\\')
    (h : escape c = .ok (ch, c')) : c.Moves c' := by
  have backslash := (Cursor.passes_next hc).moves
  unfold escape at h
  obtain ⟨next, hnext, h⟩ := run_peek (run_advance (run_offset h))
  dsimp only at h
  split at h
  -- the escapes of one character
  iterate 8
    next =>
      obtain ⟨-, rfl⟩ := advance_pure_ok h
      exact backslash.trans (Cursor.passes_next hnext).moves
  · exact backslash.trans ((Cursor.passes_next hnext).moves.trans (codePoint_moves (run_advance h)))
  · split at h
    · exact backslash.trans (codePoint_moves h)
    · exact nomatch h

/-- A single-quoted text is between two quotes. -/
theorem singleQuoted_ok {limit : Nat} {text : String} (hc : c.rest.head? = some '\'')
    (h : singleQuoted limit c = .ok (text, c')) :
    ∃ raw, c.Passes raw c' ∧ Delimited '\'' '\'' raw := by
  unfold singleQuoted at h
  obtain ⟨chars, c₁, hchars, h⟩ := run_bind_ok (run_advance (run_offset h))
  obtain ⟨-, rfl⟩ := run_pure_ok h
  -- each round passes a part of the string, and the last one the closing quote
  have inside : ∃ inner, c.next.Passes (inner ++ ['\'']) c₁ := by
    refine repeated_ok (P := fun c _ c' => ∃ inner, c.Passes (inner ++ ['\'']) c') ?_ hchars
    intro c r c' h
    obtain ⟨next, hnext, h⟩ := run_peek h
    split at h
    · exact nomatch h
    · have one := Cursor.passes_next hnext
      obtain ⟨next, hnext, h⟩ := run_peek (run_advance h)
      split at h
      · next second =>
        obtain ⟨rfl, rfl⟩ := advance_pure_ok h
        rintro later c'' ⟨inner, passes⟩
        have two := one.trans (Cursor.passes_next (hnext.trans (eq_of_beq second)))
        exact ⟨['\'', '\''] ++ inner, two.trans passes⟩
      · obtain ⟨rfl, rfl⟩ := run_pure_ok h
        exact ⟨[], one⟩
    · obtain ⟨rfl, rfl⟩ := advance_pure_ok h
      rintro later c'' ⟨inner, passes⟩
      exact ⟨_ :: inner, (Cursor.passes_next hnext).trans passes⟩
  obtain ⟨inner, passes⟩ := inside
  exact ⟨'\'' :: inner ++ ['\''], (Cursor.passes_next hc).trans passes, inner, rfl⟩

/-- A double-quoted text is. -/
theorem doubleQuoted_ok {limit : Nat} {text : String} (hc : c.rest.head? = some '"')
    (h : doubleQuoted limit c = .ok (text, c')) :
    ∃ raw, c.Passes raw c' ∧ Delimited '"' '"' raw := by
  unfold doubleQuoted at h
  obtain ⟨chars, c₁, hchars, h⟩ := run_bind_ok (run_advance (run_offset h))
  obtain ⟨-, rfl⟩ := run_pure_ok h
  have inside : ∃ inner, c.next.Passes (inner ++ ['"']) c₁ := by
    refine repeated_ok (P := fun c _ c' => ∃ inner, c.Passes (inner ++ ['"']) c') ?_ hchars
    intro c r c' h
    obtain ⟨next, hnext, h⟩ := run_peek h
    split at h
    · exact nomatch h
    · obtain ⟨rfl, rfl⟩ := advance_pure_ok h
      exact ⟨[], Cursor.passes_next hnext⟩
    · obtain ⟨ch, c₁, hescape, h⟩ := run_bind_ok h
      obtain ⟨rfl, rfl⟩ := run_pure_ok h
      obtain ⟨raw, escaped⟩ := escape_moves hnext hescape
      rintro later c'' ⟨inner, passes⟩
      refine ⟨raw ++ inner, ?_⟩
      rw [List.append_assoc]
      exact escaped.trans passes
    · obtain ⟨rfl, rfl⟩ := advance_pure_ok h
      rintro later c'' ⟨inner, passes⟩
      exact ⟨_ :: inner, (Cursor.passes_next hnext).trans passes⟩
  obtain ⟨inner, passes⟩ := inside
  exact ⟨'"' :: inner ++ ['"'], (Cursor.passes_next hc).trans passes, inner, rfl⟩

end Strings

/-! ## What is inside delimiters -/

section Grammar

open Node

/-- What stands inside a delimiter is read into whole nodes. -/
structure Grammar.Inner.Exact (code : List Char) (inner : Inner) : Prop where
  chunk : ∀ {closer c found c'}, c.At code → inner.chunk closer c = .ok (found, c') →
    Covers code c (.chunk found) c'
  compound : ∀ {around c found c'}, c.At code → inner.compound around c = .ok (found, c') →
    Covers code c (.compound found) c'

/-- Up to and including the closing delimiter. -/
def Cursor.Closes (closer : Char) (c c' : Cursor) : Prop := ∃ text, c.Passes (text ++ [closer]) c'

section Closes

variable {code text : List Char} {opening closer : Char} {c c₁ c' : Cursor}

/-- A closing delimiter that comes next closes. -/
theorem Cursor.closes_next (h : c.rest.head? = some closer) : c.Closes closer c.next :=
  ⟨[], passes_next h⟩

theorem Cursor.Moves.closes (first : c.Moves c₁) (later : c₁.Closes closer c') : c.Closes closer c' := by
  obtain ⟨text, passes⟩ := first
  obtain ⟨text', passes'⟩ := later
  refine ⟨text ++ text', ?_⟩
  rw [List.append_assoc]
  exact passes.trans passes'

/-- What is closed has been read. -/
theorem Cursor.Closes.moves (h : c.Closes closer c') : c.Moves c' := by
  obtain ⟨text, passes⟩ := h
  exact passes.moves

/-- With the opening delimiter in front, it is delimited. -/
theorem Cursor.Closes.delimited (h : c.next.Closes closer c') (hc : c.rest.head? = some opening) :
    ∃ text, c.Passes text c' ∧ Delimited opening closer text := by
  obtain ⟨text, passes⟩ := h
  exact ⟨opening :: text ++ [closer], (passes_next hc).trans passes, text, rfl⟩

end Closes

/-- Nodes read right after each other. -/
def Node.Tiles (code : List Char) (c : Cursor) : List Node → Cursor → Prop
  | [], c' => c' = c
  | n :: later, c' => ∃ c₁, Covers code c n c₁ ∧ Tiles code c₁ later c'

/-- Nodes that tile the text lead from its start to its end. -/
theorem Node.Tiles.moves {code : List Char} {nodes : List Node} {c c' : Cursor}
    (h : Tiles code c nodes c') : c.Moves c' := by
  induction nodes generalizing c with
  | nil =>
    obtain rfl : c' = c := h
    exact .refl c'
  | cons n later ih =>
    obtain ⟨c₁, covers, rest⟩ := h
    exact covers.moves.trans (ih rest)

/-- And they are a row. -/
theorem Node.Tiles.row {code : List Char} {nodes : List Node} {c c' : Cursor}
    (h : Tiles code c nodes c') : Row code c.offset c'.offset nodes := by
  induction nodes generalizing c with
  | nil =>
    obtain rfl : c' = c := h
    exact .nil (Nat.le_refl _)
  | cons n later ih =>
    obtain ⟨c₁, covers, rest⟩ := h
    exact covers.cons_row (ih rest)

variable {code : List Char} {limit : Nat} {inner : Inner} {around : Surroundings} {c c' : Cursor}

/-- The words up to a closing delimiter are in a row. -/
theorem items_ok (hinner : inner.Exact code) {closer : Char} {what : Construct}
    {found : List Compound} (here : c.At code)
    (h : items limit inner closer what c = .ok (found, c')) :
    c.Closes closer c' ∧ Row code c.offset c'.offset (found.map compound) := by
  refine repeated_ok (P := fun c found c' => c.At code →
    c.Closes closer c' ∧ Row code c.offset c'.offset (found.map Node.compound)) ?_ (run_offset h) here
  intro c r c' h
  obtain ⟨c₁, blank, h⟩ := run_skipBlank h
  obtain ⟨next, hnext, h⟩ := run_peek h
  split at h
  · exact nomatch h
  · split at h
    · next closed =>
      obtain ⟨rfl, rfl⟩ := advance_pure_ok h
      intro here
      have closes := blank.closes (Cursor.closes_next (closed ▸ hnext))
      exact ⟨closes, .nil closes.moves.le⟩
    · obtain ⟨item, c₂, hitem, h⟩ := run_bind_ok h
      split at h
      · exact (unexpected_not_ok h).elim
      · obtain ⟨rfl, rfl⟩ := run_pure_ok h
        intro later c'' rest here
        have covers := hinner.compound (here.moves blank) hitem
        obtain ⟨closes, row⟩ := rest ((here.moves blank).moves covers.moves)
        refine ⟨(blank.trans covers.moves).closes closes, ?_⟩
        exact (covers.cons_row row).widen blank.le (Nat.le_refl _)

/-- The body of a lambda in its braces. -/
theorem lambdaBody_ok (hinner : inner.Exact code) {body : Chunk} (here : c.At code)
    (hc : c.rest.head? = some '{') (h : lambdaBody inner c = .ok (body, c')) :
    c.next.Closes '}' c' ∧ Row code c.offset c'.offset [Node.chunk body] := by
  have brace := Cursor.passes_next hc
  unfold lambdaBody at h
  obtain ⟨found, c₁, hfound, h⟩ := run_bind_ok (run_advance (run_offset h))
  obtain ⟨⟨⟩, c₂, hclose, h⟩ := run_bind_ok h
  obtain ⟨rfl, rfl⟩ := run_pure_ok h
  obtain ⟨closing, rfl⟩ := closeWith_ok hclose
  have covers := hinner.chunk (here.passes brace) hfound
  have closed := Cursor.passes_next closing
  refine ⟨covers.moves.closes (Cursor.closes_next closing), ?_⟩
  exact (covers.cons_row (.nil closed.moves.le)).widen brace.moves.le (Nat.le_refl _)

/-- So are the pairs of a map. -/
theorem mapPairs_ok (hinner : inner.Exact code) {start : Nat} {found : List MapPair}
    (here : c.At code) (h : mapPairs limit inner start c = .ok (found, c')) :
    c.Closes ']' c' ∧ Row code c.offset c'.offset (found.map pair) := by
  refine repeated_ok (P := fun c found c' => c.At code →
    c.Closes ']' c' ∧ Row code c.offset c'.offset (found.map pair)) ?_ h here
  intro c r c' h
  obtain ⟨c₁, blank, h⟩ := run_skipBlank h
  obtain ⟨next, hnext, h⟩ := run_peek h
  split at h
  · exact nomatch h
  · obtain ⟨rfl, rfl⟩ := advance_pure_ok h
    intro here
    have closes := blank.closes (Cursor.closes_next hnext)
    exact ⟨closes, .nil closes.moves.le⟩
  · have ampersand := Cursor.passes_next hnext
    obtain ⟨next, hnext, h⟩ := run_peek (run_advance (run_offset h))
    split at h
    · -- a last ampersand, which starts no pair
      next closed =>
      obtain ⟨rfl, rfl⟩ := advance_pure_ok h
      intro here
      have closing := Cursor.closes_next (hnext.trans (eq_of_beq closed))
      have closes := (blank.trans ampersand.moves).closes closing
      exact ⟨closes, .nil closes.moves.le⟩
    · obtain ⟨key, c₂, hkey, h⟩ := run_bind_ok h
      obtain ⟨next, hequals, h⟩ := run_peek h
      split at h
      · exact nomatch h
      · next equals =>
        have sign : c₂.rest.head? = some '=' := by
          have : next = some '=' := by
            simp only [Bool.or_eq_true, bne_iff_ne, ne_eq, not_or, Classical.not_not] at equals
            exact equals.2
          rw [hequals, this]
        obtain ⟨value, c₃, hvalue, h⟩ := run_bind_ok (run_advance h)
        obtain ⟨rfl, rfl⟩ := spanFrom_pure_ok h
        intro later c'' rest here
        have start := here.moves blank
        have keyed := hinner.compound (start.passes ampersand) hkey
        have assigned := Cursor.passes_next sign
        have afterSign := ((start.passes ampersand).moves keyed.moves).passes assigned
        have valued := hinner.compound afterSign hvalue
        obtain ⟨raw, whole⟩ :=
          ampersand.moves.trans (keyed.moves.trans (assigned.moves.trans valued.moves))
        have row : Row code c₁.offset c₃.offset [Node.compound key, Node.compound value] := by
          have second := valued.cons_row (Row.nil (Nat.le_refl c₃.offset))
          have both := keyed.cons_row (second.widen assigned.moves.le (Nat.le_refl _))
          exact both.widen ampersand.moves.le (Nat.le_refl _)
        have node : Covers code c₁ (pair ⟨key, value, ⟨c₁.offset, c₃.offset⟩⟩) c₃ :=
          ⟨whole.moves, rfl, whole_of_passes start whole rfl row trivial⟩
        obtain ⟨closes, row⟩ := rest (start.passes whole)
        refine ⟨(blank.trans whole.moves).closes closes, ?_⟩
        exact (node.cons_row row).widen blank.le (Nat.le_refl _)
  · exact (unexpected_not_ok h).elim

/-- Items that are barewords are read as parameters where they stand. -/
theorem params_ok {found : List Compound} {names : List Param} {start stop : Nat}
    (row : Row code start stop (found.map compound)) (h : params found c = .ok (names, c')) :
    c' = c ∧ Row code start stop (names.map param) := by
  induction found generalizing names start c with
  | nil =>
    obtain ⟨rfl, rfl⟩ := run_pure_ok h
    exact ⟨rfl, row⟩
  | cons item found ih =>
    have first : (Node.compound item).Whole code := row.whole _ List.mem_cons_self
    have rest : Row code item.span.stop stop (found.map compound) :=
      ⟨row.order.2.2, fun m hm => row.whole m (List.mem_cons_of_mem _ hm)⟩
    unfold params at h
    cases hword : item.bareword? with
    | none =>
      rw [hword] at h
      cases h
    | some word =>
      rw [hword] at h
      obtain ⟨later, c₁, hlater, h⟩ := run_bind_ok h
      obtain ⟨rfl, rfl⟩ := run_pure_ok h
      obtain ⟨same, tail⟩ := ih rest hlater
      obtain ⟨text, found, read⟩ := first.exact.text
      have self : (param ⟨word, item.span⟩).Exact code :=
        ⟨first.exact.ordered, first.exact.inside, first.exact.starts, first.exact.stops,
          first.exact.ordered, text, found, read word hword⟩
      exact ⟨same, .cons (self.whole (List.forall_mem_nil _)) row.order.1 tail⟩

/-- What starts with an opening bracket. -/
theorem bracketed_ok (hinner : inner.Exact code) {found : Primary} (here : c.At code)
    (hc : c.rest.head? = some '[') (h : bracketed limit inner c.offset c = .ok (found, c')) :
    Covers code c (.primary found) c' := by
  have opening := Cursor.passes_next hc
  unfold bracketed at h
  obtain ⟨c₁, blank, h⟩ := run_skipBlank (run_advance h)
  have start := (here.passes opening).moves blank
  have before := opening.moves.trans blank
  obtain ⟨next, hnext, h⟩ := run_peek h
  split at h
  · obtain ⟨pairs, c₂, hpairs, h⟩ := run_bind_ok h
    obtain ⟨rfl, rfl⟩ := spanFrom_pure_ok h
    obtain ⟨closes, row⟩ := mapPairs_ok hinner start hpairs
    obtain ⟨raw, passes, delimited⟩ := (blank.closes closes).delimited hc
    refine ⟨passes.moves, rfl, whole_of_passes here passes rfl ?_ delimited⟩
    exact row.widen before.le (Nat.le_refl _)
  · obtain ⟨found, c₂, hfound, h⟩ := run_bind_ok h
    obtain ⟨closes, row⟩ := items_ok hinner start hfound
    replace row := row.widen before.le (Nat.le_refl _)
    obtain ⟨next, hnext, h⟩ := run_peek h
    split at h
    · next brace =>
      -- the bracket was the parameters of a lambda, whose body follows
      have opened := hnext.trans (eq_of_beq brace)
      obtain ⟨names, c₃, hnames, h⟩ := run_bind_ok h
      obtain ⟨body, c₄, hbody, h⟩ := run_bind_ok h
      obtain ⟨rfl, rfl⟩ := spanFrom_pure_ok h
      obtain ⟨rfl, named⟩ := params_ok row hnames
      have there := start.moves closes.moves
      obtain ⟨ends, bodied⟩ := lambdaBody_ok hinner there opened hbody
      have bracketed := blank.trans closes.moves
      have toBody := bracketed.trans (Cursor.passes_next opened).moves
      obtain ⟨raw, passes, delimited⟩ := (toBody.closes ends).delimited hc
      exact ⟨passes.moves, rfl, whole_of_passes here passes rfl (named.append bodied) (.inl delimited)⟩
    · obtain ⟨rfl, rfl⟩ := spanFrom_pure_ok h
      obtain ⟨raw, passes, delimited⟩ := (blank.closes closes).delimited hc
      exact ⟨passes.moves, rfl, whole_of_passes here passes rfl row delimited⟩

/-- So are the words between braces. -/
theorem bracedItems_ok (hinner : inner.Exact code) {found : List Compound} (here : c.At code)
    (hc : c.rest.head? = some '{') (h : bracedItems limit inner c = .ok (found, c')) :
    c.Moves c' ∧ Row code c.offset c'.offset (found.map compound) := by
  have brace := Cursor.passes_next hc
  replace h := run_advance (run_offset h)
  have inside : c.next.Moves c' ∧ Row code c.next.offset c'.offset (found.map compound) := by
    refine repeated_ok (P := fun c found c' => c.At code →
      c.Moves c' ∧ Row code c.offset c'.offset (found.map Node.compound)) ?_ h (here.passes brace)
    intro c r c' h
    obtain ⟨c₁, blank, h⟩ := run_skipBlank h
    obtain ⟨item, c₂, hitem, h⟩ := run_bind_ok h
    obtain ⟨c₃, blank', h⟩ := run_skipBlank h
    obtain ⟨next, hnext, h⟩ := run_peek h
    split at h
    · obtain ⟨rfl, rfl⟩ := advance_pure_ok h
      intro later c'' rest here
      have covers := hinner.compound (here.moves blank) hitem
      have toNext := blank'.trans (Cursor.passes_next hnext).moves
      have after := blank.trans (covers.moves.trans toNext)
      obtain ⟨moves, row⟩ := rest (here.moves after)
      refine ⟨after.trans moves, ?_⟩
      have both := covers.cons_row (row.widen toNext.le (Nat.le_refl _))
      exact both.widen blank.le (Nat.le_refl _)
    · obtain ⟨rfl, rfl⟩ := advance_pure_ok h
      intro here
      have covers := hinner.compound (here.moves blank) hitem
      have toNext := blank'.trans (Cursor.passes_next hnext).moves
      refine ⟨blank.trans (covers.moves.trans toNext), ?_⟩
      have last := covers.cons_row (.nil toNext.le)
      exact last.widen blank.le (Nat.le_refl _)
    · exact nomatch h
    · exact (unexpected_not_ok h).elim
  exact ⟨brace.moves.trans inside.1, inside.2.widen brace.moves.le (Nat.le_refl _)⟩

/-- Nothing was found and the cursor has not moved, or a node was read. -/
def Node.Found (code : List Char) (c : Cursor) : Option Node → Cursor → Prop
  | none, c' => c' = c
  | some n, c' => Covers code c n c'

/-- A bareword covers what was read, and is covered by it. -/
theorem bareword?_ok {found : Option Primary} (here : c.At code)
    (h : bareword? around c = .ok (found, c')) : Found code c (found.map primary) c' := by
  unfold bareword? at h
  replace h := run_munch (run_offset h)
  have word := Cursor.passes_dropWhile (isBarewordChar around) c
  split at h
  · next empty =>
    obtain ⟨rfl, rfl⟩ := run_pure_ok h
    rw [List.isEmpty_iff.mp empty] at word
    exact word.eq_of_nil
  · obtain ⟨rfl, rfl⟩ := spanFrom_pure_ok h
    have text : (Node.primary (.bareword (String.ofList (c.rest.takeWhile (isBarewordChar around)))
        ⟨c.offset, (c.dropWhile (isBarewordChar around)).offset⟩)).ReadFrom
          (c.rest.takeWhile (isBarewordChar around)) := String.toList_ofList.symm
    exact ⟨word.moves, rfl, whole_of_passes here word rfl (.nil word.moves.le) text⟩

/-- **A primary covers what was read**, in each of its cases. -/
theorem primary?_ok (hinner : inner.Exact code) {found : Option Primary} (here : c.At code)
    (h : primary? limit inner around c = .ok (found, c')) :
    Found code c (found.map primary) c' := by
  unfold primary? at h
  obtain ⟨next, hnext, h⟩ := run_peek (run_offset h)
  split at h
  · obtain ⟨rfl, rfl⟩ := run_pure_ok h
    rfl
  · obtain ⟨text, c₁, htext, h⟩ := run_bind_ok h
    obtain ⟨rfl, rfl⟩ := spanFrom_pure_ok h
    obtain ⟨raw, passes, delimited⟩ := singleQuoted_ok hnext htext
    exact ⟨passes.moves, rfl, whole_of_passes here passes rfl (.nil passes.moves.le) delimited⟩
  · obtain ⟨text, c₁, htext, h⟩ := run_bind_ok h
    obtain ⟨rfl, rfl⟩ := spanFrom_pure_ok h
    obtain ⟨raw, passes, delimited⟩ := doubleQuoted_ok hnext htext
    exact ⟨passes.moves, rfl, whole_of_passes here passes rfl (.nil passes.moves.le) delimited⟩
  · obtain ⟨text, c₁, htext, h⟩ := run_bind_ok h
    obtain ⟨rfl, rfl⟩ := spanFrom_pure_ok h
    have passes := variableName_ok hnext htext
    exact ⟨passes.moves, rfl, whole_of_passes here passes rfl (.nil passes.moves.le) rfl⟩
  · have opening := Cursor.passes_next hnext
    obtain ⟨body, c₁, hbody, h⟩ := run_bind_ok (run_advance h)
    obtain ⟨⟨⟩, c₂, hclose, h⟩ := run_bind_ok h
    obtain ⟨rfl, rfl⟩ := spanFrom_pure_ok h
    obtain ⟨closing, rfl⟩ := closeWith_ok hclose
    have covers := hinner.chunk (here.passes opening) hbody
    have closes := Cursor.closes_next closing
    obtain ⟨raw, passes, delimited⟩ := (covers.moves.closes closes).delimited hnext
    have row := covers.cons_row (.nil closes.moves.le)
    refine ⟨passes.moves, rfl, whole_of_passes here passes rfl ?_ delimited⟩
    exact row.widen opening.moves.le (Nat.le_refl _)
  · obtain ⟨found, c₁, hfound, h⟩ := run_bind_ok h
    obtain ⟨rfl, rfl⟩ := run_pure_ok h
    exact bracketed_ok hinner here hnext hfound
  · obtain ⟨second, -, h⟩ := run_second h
    split at h
    · obtain ⟨body, c₁, hbody, h⟩ := run_bind_ok h
      obtain ⟨rfl, rfl⟩ := spanFrom_pure_ok h
      obtain ⟨closes, row⟩ := lambdaBody_ok hinner here hnext hbody
      obtain ⟨raw, passes, delimited⟩ := closes.delimited hnext
      exact ⟨passes.moves, rfl, whole_of_passes here passes rfl row (.inr ⟨rfl, delimited⟩)⟩
    · obtain ⟨found, c₁, hfound, h⟩ := run_bind_ok h
      obtain ⟨rfl, rfl⟩ := spanFrom_pure_ok h
      obtain ⟨⟨raw, passes⟩, row⟩ := bracedItems_ok hinner here hnext hfound
      exact ⟨passes.moves, rfl, whole_of_passes here passes rfl row trivial⟩
  · exact bareword?_ok here h

/-! ## Compounds -/

/-- An index covers its brackets. -/
theorem bracket_ok (hinner : inner.Exact code) {found : Bracket} (here : c.At code)
    (hc : c.rest.head? = some '[') (h : Grammar.bracket limit inner c = .ok (found, c')) :
    Covers code c (.bracket found) c' := by
  have opening := Cursor.passes_next hc
  unfold Grammar.bracket at h
  obtain ⟨found, c₁, hfound, h⟩ := run_bind_ok (run_advance (run_offset h))
  obtain ⟨rfl, rfl⟩ := spanFrom_pure_ok h
  obtain ⟨closes, row⟩ := items_ok hinner (here.passes opening) hfound
  obtain ⟨raw, passes, delimited⟩ := closes.delimited hc
  refine ⟨passes.moves, rfl, whole_of_passes here passes rfl ?_ delimited⟩
  exact row.widen opening.moves.le (Nat.le_refl _)

/-- A primary with its indices is tiled by them. -/
theorem indexing?_ok (hinner : inner.Exact code) {found : Option Indexing} (here : c.At code)
    (h : indexing? limit inner around c = .ok (found, c')) :
    Found code c (found.map indexing) c' := by
  unfold indexing? at h
  obtain ⟨first, c₁, hfirst, h⟩ := run_bind_ok (run_offset h)
  have read := primary?_ok hinner here hfirst
  cases first with
  | none =>
    obtain ⟨rfl, rfl⟩ := run_pure_ok h
    exact read
  | some head =>
    obtain ⟨brackets, c₂, hbrackets, h⟩ := run_bind_ok h
    obtain ⟨rfl, rfl⟩ := spanFrom_pure_ok h
    have covers : Covers code c (.primary head) c₁ := read
    have tiles : Tiles code c₁ (brackets.map bracket) c₂ := by
      refine repeated_ok (P := fun c found c' => c.At code →
        Tiles code c (found.map bracket) c') ?_ hbrackets (here.moves covers.moves)
      intro c r c' h
      obtain ⟨next, hnext, h⟩ := run_peek h
      split at h
      · next opened =>
        obtain ⟨one, c₁, hone, h⟩ := run_bind_ok h
        obtain ⟨rfl, rfl⟩ := run_pure_ok h
        intro later c'' rest here
        have covers := bracket_ok hinner here (hnext.trans (eq_of_beq opened)) hone
        exact ⟨c₁, covers, rest (here.moves covers.moves)⟩
      · obtain ⟨rfl, rfl⟩ := run_pure_ok h
        intro here
        rfl
    obtain ⟨text, passes⟩ := covers.moves.trans tiles.moves
    refine ⟨passes.moves, rfl, whole_of_passes here passes rfl (covers.cons_row tiles.row) ?_⟩
    -- without brackets, it ends where its head ends, and their texts are the same
    rintro (rfl : brackets = []) word (hword : head.bareword? = some word)
    obtain rfl : c₂ = c₁ := tiles
    obtain ⟨text', found, read⟩ := covers.whole.exact.text
    rw [covers.span, here.slice passes] at found
    obtain rfl := Option.some.inj found
    cases head with
    | bareword name => exact read.trans (congrArg String.toList (Option.some.inj hword))
    | _ => exact nomatch hword

/-- A word is tiled by its parts. -/
theorem compound_ok (hinner : inner.Exact code) {found : Compound} (here : c.At code)
    (h : Grammar.compound limit inner around c = .ok (found, c')) :
    Covers code c (.compound found) c' := by
  unfold Grammar.compound at h
  obtain ⟨indexings, c₁, hindexings, h⟩ := run_bind_ok (run_offset h)
  obtain ⟨rfl, rfl⟩ := spanFrom_pure_ok h
  have tiles : Tiles code c (indexings.map indexing) c₁ := by
    refine repeated_ok (P := fun c found c' => c.At code →
      Tiles code c (found.map indexing) c') ?_ hindexings here
    intro c r c' h
    obtain ⟨found, c₁, hfound, h⟩ := run_bind_ok h
    cases found with
    | some one =>
      obtain ⟨rfl, rfl⟩ := run_pure_ok h
      intro later c'' rest here
      have covers : Covers code c (.indexing one) c₁ := indexing?_ok hinner here hfound
      exact ⟨c₁, covers, rest (here.moves covers.moves)⟩
    | none =>
      obtain ⟨rfl, rfl⟩ := run_pure_ok h
      intro here
      exact indexing?_ok hinner here hfound
  obtain ⟨text, passes⟩ := tiles.moves
  refine ⟨passes.moves, rfl, whole_of_passes here passes rfl tiles.row ?_⟩
  -- a single bareword ends where the compound ends
  intro word hword
  match indexings, tiles, hword with
  | [⟨head, [], span⟩], tiles, hword =>
    obtain ⟨c₂, covers, same⟩ := tiles
    obtain rfl : c₁ = c₂ := same
    obtain ⟨text', found, read⟩ := covers.whole.exact.text
    rw [covers.span, here.slice passes] at found
    obtain rfl := Option.some.inj found
    exact read rfl word hword

/-! ## Forms -/

/-- An assignment without spaces covers what was read. -/
theorem compactAssignment?_ok (hinner : inner.Exact code) {found : Assignment}
    (here : c.At code) (h : compactAssignment? limit inner c = .ok (some found, c')) :
    Covers code c (.assignment found) c' := by
  unfold compactAssignment? at h
  obtain ⟨next, hnext, h⟩ := run_peek (run_offset h)
  cases next with
  | none => exact nomatch h
  | some ch =>
    obtain ⟨second, -, h⟩ := run_second h
    split at h
    · exact nomatch h
    · obtain ⟨left, c₁, hleft, h⟩ := run_bind_ok h
      cases left with
      | none => exact nomatch h
      | some left =>
        have target : Covers code c (.indexing left) c₁ := indexing?_ok hinner here hleft
        obtain ⟨next, hequals, h⟩ := run_peek h
        generalize other : (!_ || next != some '=') = no at h
        cases no with
        | true => exact nomatch h
        | false =>
          have sign : c₁.rest.head? = some '=' := by
            rw [Bool.or_eq_false_iff, bne_eq_false_iff_eq] at other
            rw [hequals, other.2]
          have assigned := Cursor.passes_next sign
          obtain ⟨right, c₂, hright, h⟩ := run_bind_ok (run_advance h)
          obtain ⟨hfound, rfl⟩ := spanFrom_pure_ok h
          obtain rfl := Option.some.inj hfound
          have value := compound_ok hinner ((here.moves target.moves).passes assigned) hright
          obtain ⟨text, passes⟩ := target.moves.trans (assigned.moves.trans value.moves)
          have right := value.cons_row (.nil (Nat.le_refl _))
          have row := target.cons_row (right.widen assigned.moves.le (Nat.le_refl _))
          exact ⟨passes.moves, rfl, whole_of_passes here passes rfl row trivial⟩

/-- The assignments stand in a row; if there are none, nothing was read. -/
theorem compactAssignments_ok (hinner : inner.Exact code) {found : List Assignment}
    (here : c.At code) (h : compactAssignments limit inner c = .ok (found, c')) :
    c.Moves c' ∧ Row code c.offset c'.offset (found.map assignment) ∧ (found = [] → c' = c) := by
  unfold compactAssignments at h
  obtain ⟨assignments, c₁, hassignments, h⟩ := run_bind_ok h
  have read : c.Moves c₁ ∧ Row code c.offset c₁.offset (assignments.map assignment) ∧
      (assignments = [] → c₁ = c) := by
    refine repeated_ok (P := fun c found c' => c.At code → c.Moves c' ∧
      Row code c.offset c'.offset (found.map assignment) ∧ (found = [] → c' = c)) ?_ hassignments here
    intro c r c' h
    obtain ⟨tried, c₁, htried, hafter⟩ := run_bind_ok h
    rcases attempt_ok htried with ⟨one, rfl, hone⟩ | ⟨rfl, rfl⟩
    · obtain ⟨c₂, spaces, h⟩ := run_skipSpaces hafter
      obtain ⟨ended, h⟩ := run_atFormEnd h
      split at h
      · obtain ⟨rfl, rfl⟩ := run_pure_ok h
        intro here
        have covers := compactAssignment?_ok hinner here hone
        exact ⟨covers.moves.trans spaces, covers.cons_row (.nil spaces.le), nofun⟩
      · obtain ⟨rfl, rfl⟩ := run_pure_ok h
        intro later c'' rest here
        have covers := compactAssignment?_ok hinner here hone
        obtain ⟨moves, row, -⟩ := rest ((here.moves covers.moves).moves spaces)
        refine ⟨covers.moves.trans (spaces.trans moves), ?_, nofun⟩
        exact covers.cons_row (row.widen spaces.le (Nat.le_refl _))
    · obtain ⟨rfl, rfl⟩ := run_pure_ok hafter
      intro here
      exact ⟨.refl _, .nil (Nat.le_refl _), fun _ => rfl⟩
  split at h
  · next empty =>
    obtain ⟨rfl, rfl⟩ := run_pure_ok h
    obtain rfl := List.isEmpty_iff.mp empty
    exact read
  · next nonempty =>
    obtain ⟨c₂, spaces, h⟩ := run_skipSpaces h
    obtain ⟨ended, h⟩ := run_atFormEnd h
    split at h
    · obtain ⟨rfl, rfl⟩ := run_pure_ok h
      refine ⟨read.1.trans spaces, read.2.1.widen (Nat.le_refl _) spaces.le, fun none => ?_⟩
      exact absurd (List.isEmpty_iff.mpr none) nonempty
    · exact nomatch h

/-- A command ends with its last word, and blanks may follow. -/
theorem commandForm_ok (hinner : inner.Exact code) {found : Form} (here : c.At code)
    (h : commandForm limit inner c = .ok (found, c')) : Lies code c (.form found) c' := by
  unfold commandForm at h
  obtain ⟨head, c₁, hhead, h⟩ := run_bind_ok (run_offset h)
  have headed := compound_ok hinner here hhead
  split at h
  · exact (unexpected_not_ok h).elim
  · obtain ⟨args, c₂, hargs, h⟩ := run_bind_ok h
    have there := here.moves headed.moves
    have read : c₁.Moves c₂ ∧ Row code c₁.offset c₂.offset (args.map Node.compound) := by
      refine repeated_ok (P := fun c found c' => c.At code → c.Moves c' ∧
        Row code c.offset c'.offset (found.map Node.compound)) ?_ hargs there
      intro c r c' h
      obtain ⟨c₁, spaces, h⟩ := run_skipSpaces h
      obtain ⟨ended, h⟩ := run_atFormEnd h
      split at h
      · obtain ⟨rfl, rfl⟩ := run_pure_ok h
        intro here
        exact ⟨spaces, .nil spaces.le⟩
      · obtain ⟨arg, c₃, harg, h⟩ := run_bind_ok h
        split at h
        · exact (unexpected_not_ok h).elim
        · obtain ⟨rfl, rfl⟩ := run_pure_ok h
          intro later c'' rest here
          have covers := compound_ok hinner (here.moves spaces) harg
          obtain ⟨moves, row⟩ := rest ((here.moves spaces).moves covers.moves)
          refine ⟨spaces.trans (covers.moves.trans moves), ?_⟩
          exact (covers.cons_row row).widen spaces.le (Nat.le_refl _)
    have moves := headed.moves.trans read.1
    -- the form stops where its last word stops
    obtain ⟨row, stops, le⟩ := read.2.upToLast there.boundary
    have same : (args.map Node.compound).map Node.span = args.map Compound.span :=
      spans_map Node.compound Compound.span (fun _ => rfl) args
    have stop : head.span.stop = c₁.offset := congrArg Span.stop headed.span
    rw [same, ← stop] at row stops le
    have words := headed.whole.exact
    have begins : c.offset = head.span.start := (congrArg Span.start headed.span).symm
    have command : Lies code c (.form (.command head args
        (spanTo c.offset head.span.stop (args.map Compound.span)))) c₂ := by
      have words := Row.cons headed.whole (Nat.le_of_eq begins) row
      exact ⟨moves, rfl, le, whole_of_row here.boundary stops words (fun _ => trivial)⟩
    cases args with
    | nil =>
      obtain ⟨rfl, rfl⟩ := run_pure_ok h
      exact command
    | cons second values =>
      dsimp only at h
      split at h
      · generalize hhead : head.indexings = indexings at h
        split at h
        · next left =>
          -- the second word is the sign, and the target is all of the first
          obtain ⟨rfl, rfl⟩ := run_pure_ok h
          have one : (Node.compound head).children = [Node.indexing left] :=
            congrArg (List.map Node.indexing) hhead
          have target := headed.whole.child (m := .indexing left) (one ▸ List.mem_cons_self)
          have nested := headed.whole.exact.nested
          rw [one] at nested
          have right : Row code second.span.stop _ (values.map Node.compound) :=
            ⟨row.order.2.2, fun m hm => row.whole m (List.mem_cons_of_mem _ hm)⟩
          have sign : left.span.stop ≤ second.span.stop :=
            Nat.le_trans nested.2.2 (Nat.le_trans row.order.1 row.order.2.1)
          have parts := Row.cons target (begins ▸ nested.1) (right.widen sign (Nat.le_refl _))
          have assigned : (Node.assignment ⟨left, values,
              spanTo c.offset head.span.stop ((second :: values).map Compound.span)⟩).Whole code :=
            whole_of_row here.boundary stops parts (fun _ => trivial)
          have alone := Row.cons assigned (Nat.le_refl _) (.nil (Nat.le_refl _))
          exact ⟨moves, rfl, le, whole_of_row here.boundary stops alone (fun _ => trivial)⟩
        · exact nomatch h
      · obtain ⟨rfl, rfl⟩ := run_pure_ok h
        exact command

/-- The span up to the last part of a row is the one that the row fits. -/
theorem Node.lies_upToLast {n : Node} (here : c.At code) (moves : c.Moves c')
    (row : Row code c.offset c'.offset n.children)
    (hspan : n.span = spanTo c.offset c.offset (n.children.map span)) (read : ∀ text, n.ReadFrom text) :
    Lies code c n c' := by
  obtain ⟨row, stops, le⟩ := row.upToLast here.boundary
  refine ⟨moves, ?_, ?_, whole_of_row ?_ ?_ ?_ read⟩
  all_goals rw [hspan]
  · rfl
  · exact le
  · exact here.boundary
  · exact stops
  · exact row

/-- So does a form. -/
theorem form_ok (hinner : inner.Exact code) {found : Form} (here : c.At code)
    (h : Grammar.form limit inner c = .ok (found, c')) : Lies code c (.form found) c' := by
  unfold Grammar.form at h
  obtain ⟨assignments, c₁, hassignments, h⟩ := run_bind_ok (run_offset h)
  obtain ⟨moves, row, none⟩ := compactAssignments_ok hinner here hassignments
  cases assignments with
  | nil =>
    obtain rfl := none rfl
    exact commandForm_ok hinner here h
  | cons first later =>
    obtain ⟨rfl, rfl⟩ := run_pure_ok h
    refine lies_upToLast here moves row ?_ (fun _ => trivial)
    exact congrArg (spanTo _ _) (spans_map Node.assignment Assignment.span (fun _ => rfl) _).symm

/-- And a pipeline ends with its last form. -/
theorem pipeline_ok (hinner : inner.Exact code) {found : Pipeline} (here : c.At code)
    (h : Grammar.pipeline limit inner c = .ok (found, c')) : Lies code c (.pipeline found) c' := by
  unfold Grammar.pipeline at h
  obtain ⟨first, c₁, hfirst, h⟩ := run_bind_ok (run_offset h)
  obtain ⟨others, c₂, hothers, h⟩ := run_bind_ok h
  obtain ⟨rfl, rfl⟩ := run_pure_ok h
  have lies := form_ok hinner here hfirst
  have read : c₁.Moves c₂ ∧ Row code c₁.offset c₂.offset (others.map Node.form) := by
    refine repeated_ok (P := fun c found c' => c.At code → c.Moves c' ∧
      Row code c.offset c'.offset (found.map Node.form)) ?_ hothers (here.moves lies.moves)
    intro c r c' h
    obtain ⟨c₁, spaces, h⟩ := run_skipSpaces h
    obtain ⟨next, hnext, h⟩ := run_peek h
    split at h
    · next piped =>
      have bar := (Cursor.passes_next (hnext.trans (eq_of_beq piped))).moves
      obtain ⟨c₂, blank, h⟩ := run_skipBlank (run_advance h)
      obtain ⟨form, c₃, hform, h⟩ := run_bind_ok h
      obtain ⟨rfl, rfl⟩ := run_pure_ok h
      intro later c'' rest here
      have before := spaces.trans (bar.trans blank)
      have lies := form_ok hinner (here.moves before) hform
      obtain ⟨moves, row⟩ := rest ((here.moves before).moves lies.moves)
      refine ⟨before.trans (lies.moves.trans moves), ?_⟩
      exact (lies.cons_row row).widen before.le (Nat.le_refl _)
    · obtain ⟨rfl, rfl⟩ := run_pure_ok h
      intro here
      exact ⟨spaces, .nil spaces.le⟩
  refine lies_upToLast here (lies.moves.trans read.1) (lies.cons_row read.2) ?_ (fun _ => trivial)
  exact congrArg (spanTo _ _) (spans_map Node.form Form.span (fun _ => rfl) _).symm

/-- **Code covers all that was read**, with the separators around it. -/
theorem chunk_ok (hinner : inner.Exact code) {closer : Option Char} {found : Chunk}
    (here : c.At code) (h : Grammar.chunk limit inner closer c = .ok (found, c')) :
    Covers code c (.chunk found) c' := by
  unfold Grammar.chunk at h
  obtain ⟨pipelines, c₁, hpipelines, h⟩ := run_bind_ok (run_offset h)
  obtain ⟨rfl, rfl⟩ := spanFrom_pure_ok h
  have read : c.Moves c₁ ∧ Row code c.offset c₁.offset (pipelines.map Node.pipeline) := by
    refine repeated_ok (P := fun c found c' => c.At code → c.Moves c' ∧
      Row code c.offset c'.offset (found.map Node.pipeline)) ?_ hpipelines here
    intro c r c' h
    obtain ⟨c₁, separators, h⟩ := run_skipSeparators h
    obtain ⟨next, hnext, h⟩ := run_peek h
    cases next with
    | none =>
      obtain ⟨rfl, rfl⟩ := run_pure_ok h
      intro here
      exact ⟨separators, .nil separators.le⟩
    | some ch =>
      dsimp only at h
      split at h
      · obtain ⟨rfl, rfl⟩ := run_pure_ok h
        intro here
        exact ⟨separators, .nil separators.le⟩
      · split at h
        · exact (unexpected_not_ok h).elim
        · obtain ⟨one, c₂, hone, h⟩ := run_bind_ok h
          obtain ⟨c₃, spaces, h⟩ := run_skipSpaces h
          obtain ⟨c₄, comment, h⟩ := run_skipComment h
          have after := spaces.trans comment
          obtain ⟨next, hnext, h⟩ := run_peek h
          -- what follows the pipeline says whether it is the last one
          have last (here : c.At code) : c.Moves c₄ ∧ Row code c.offset c₄.offset [.pipeline one] := by
            have lies := pipeline_ok hinner (here.moves separators) hone
            refine ⟨separators.trans (lies.moves.trans after), ?_⟩
            exact (lies.cons_row (.nil after.le)).widen separators.le (Nat.le_refl _)
          have more (here : c.At code) (later : List Pipeline) (c'' : Cursor)
              (rest : c₄.At code → c₄.Moves c'' ∧
                Row code c₄.offset c''.offset (later.map Node.pipeline)) :
              c.Moves c'' ∧ Row code c.offset c''.offset ((one :: later).map Node.pipeline) := by
            have lies := pipeline_ok hinner (here.moves separators) hone
            have before := separators.trans (lies.moves.trans after)
            obtain ⟨moves, row⟩ := rest (here.moves before)
            refine ⟨before.trans moves, ?_⟩
            have pipelines := lies.cons_row (row.widen after.le (Nat.le_refl _))
            exact pipelines.widen separators.le (Nat.le_refl _)
          cases next with
          | none =>
            obtain ⟨rfl, rfl⟩ := run_pure_ok h
            exact last
          | some ch =>
            dsimp only at h
            split at h
            · obtain ⟨rfl, rfl⟩ := run_pure_ok h
              intro later c'' rest here
              exact more here later c'' rest
            · split at h
              · obtain ⟨rfl, rfl⟩ := run_pure_ok h
                exact last
              · exact (unexpected_not_ok h).elim
  obtain ⟨⟨text, passes⟩, row⟩ := read
  exact ⟨passes.moves, rfl, whole_of_passes here passes rfl row trivial⟩

/-! ## Source texts -/

/-- By induction on the depth: each level reads whole nodes if the level below does. -/
theorem inner_exact (code : List Char) (limit depth : Nat) : (Grammar.inner limit depth).Exact code := by
  induction depth with
  | zero => exact ⟨nofun, nofun⟩
  | succ depth ih => exact ⟨chunk_ok ih, compound_ok ih⟩

end Grammar

/-- **The spans of a syntax tree are exact.**  Every node of a source text that parses has for its span
a window of the text between two character boundaries; the spans of its children lie in it, in
source order and without overlap; and what the node says is what is written there. -/
theorem readChunk_exact {code : String} {chunk : Chunk} {n : Node} (h : readChunk code = .ok chunk)
    (hn : n.Inside (.chunk chunk)) : n.Exact code.toList := by
  obtain ⟨-, c, hunit⟩ := readChunk_ok_iff.mp h
  unfold Grammar.unit at hunit
  obtain ⟨found, c₁, hfound, hunit⟩ := run_bind_ok hunit
  obtain ⟨next, -, hunit⟩ := run_peek hunit
  split at hunit
  · exact (unexpected_not_ok hunit).elim
  · obtain ⟨rfl, rfl⟩ := run_pure_ok hunit
    have start : (Cursor.start code.toList).At code.toList := ⟨[], rfl, rfl⟩
    have covers := chunk_ok (inner_exact code.toList _ _) start hfound
    exact covers.whole n hn

/-- A variable in a bracket after text of several bytes, before a comment. -/
theorem readChunk_exact_after_multibyte :
    ∃ chunk, readChunk "f 'é'[$x] # ü" = .ok chunk ∧
      (Node.primary (.reference "x" ⟨7, 9⟩)).Inside (.chunk chunk) ∧
      (Node.primary (.reference "x" ⟨7, 9⟩)).Exact "f 'é'[$x] # ü".toList := by
  let name : Indexing := ⟨.reference "x" ⟨7, 9⟩, [], ⟨7, 9⟩⟩
  let index : Bracket := ⟨[⟨[name], ⟨7, 9⟩⟩], ⟨6, 10⟩⟩
  let argument : Compound := ⟨[⟨.singleQuoted "é" ⟨2, 6⟩, [index], ⟨2, 10⟩⟩], ⟨2, 10⟩⟩
  let command : Form :=
    .command ⟨[⟨.bareword "f" ⟨0, 1⟩, [], ⟨0, 1⟩⟩], ⟨0, 1⟩⟩ [argument] ⟨0, 10⟩
  have read : readChunk "f 'é'[$x] # ü" = .ok ⟨[⟨[command], ⟨0, 10⟩⟩], ⟨0, 15⟩⟩ := rfl
  have inside : (Node.primary (.reference "x" ⟨7, 9⟩)).Inside
      (.chunk ⟨[⟨[command], ⟨0, 10⟩⟩], ⟨0, 15⟩⟩) := by
    refine .child (m := .pipeline _) (.head _) (.child (m := .form _) (.head _) ?_)
    refine .child (m := .compound argument) (.tail _ (.head _)) (.child (m := .indexing _) (.head _) ?_)
    refine .child (m := .bracket index) (.tail _ (.head _)) (.child (m := .compound _) (.head _) ?_)
    exact .child (m := .indexing _) (.head _) (.child (m := .primary _) (.head _) .self)
  exact ⟨_, read, inside, readChunk_exact read inside⟩

end ValueShell
