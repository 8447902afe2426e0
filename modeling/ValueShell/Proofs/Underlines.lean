/-
  Where the carets stand.

  A report quotes one line of the source and underlines a part of it.  All it has to go by are two byte offsets.  From
  these come the number of the line, by a binary search in the table of line starts, the line itself, cut out
  between two of the starts, and the column, by counting the characters of another cut.

  What is meant is simple, if the source is taken apart at the two offsets, into the text `before` the region, the
  `region`, and the text `after` it.  Before the region stand as many newlines as there are lines above; the line goes
  from the last of them to the next one after (`lineHead`, `lineTail`); and the carets stand under what the region has
  of this line (`render_underlines`).  So nothing depends on bytes, and it makes no difference whether the region is
  empty, goes on over several lines, starts or stops at a newline, or reaches the end of a source without one.

  The numbers that are printed have 32 bits.  A source shorter than 2^32 bytes may still be one line of 2^32 - 1
  characters, and at its end the column has no such number: it is printed as `0`
  (`renderExcerpt_column_zero`).  `Numbered` leaves this source out, and the one of as many newlines.
-/
import Mathlib.Data.List.DropRight
import ValueShell.Proofs.CompiledSpans
import ValueShell.Report.Rendering

namespace ValueShell

/-! ## Lines of a text -/

/-- Whether a character is within a line. -/
def inLine (c : Char) : Bool := c != '\n'

theorem inLine_of_ne {c : Char} (other : c ≠ '\n') : inLine c = true := bne_iff_ne.mpr other

/-- All characters of a text without a newline are within a line. -/
theorem inLine_of_not_mem {line : List Char} (h : '\n' ∉ line) : ∀ c ∈ line, inLine c = true :=
  fun _ mem => inLine_of_ne fun same => h (same ▸ mem)

/-- The last line of a text. -/
def lineHead (before : List Char) : List Char := before.rtakeWhile inLine

/-- The first line of a text. -/
def lineTail (rest : List Char) : List Char := rest.takeWhile inLine

/-- What stands before the last line of a text. -/
def linesAbove (before : List Char) : List Char := before.rdropWhile inLine

theorem linesAbove_append_lineHead (before : List Char) : linesAbove before ++ lineHead before = before :=
  List.rdropWhile_append_rtakeWhile ..

theorem lineTail_append (rest : List Char) : lineTail rest ++ rest.dropWhile inLine = rest :=
  List.takeWhile_append_dropWhile

namespace LineTable

/-! ## The starts of lines -/

theorem startsAfter_append (offset : Nat) (before rest : List Char) :
    startsAfter offset (before ++ rest) =
      startsAfter offset before ++ startsAfter (offset + byteLength before) rest := by
  induction before generalizing offset with
  | nil => rfl
  | cons c before ih =>
    simp only [List.cons_append, startsAfter, byteLength, ih, ← Nat.add_assoc]
    split <;> rfl

theorem length_startsAfter (offset : Nat) (cs : List Char) : (startsAfter offset cs).length = cs.count '\n' := by
  induction cs generalizing offset with
  | nil => rfl
  | cons c cs ih =>
    rw [startsAfter, List.count_cons]
    split
    · next newline => simp [newline, ih]
    · next other => simp [other, ih]

/-- The starts are after the characters that they come from. -/
theorem bounds_of_mem_startsAfter {offset s : Nat} {cs : List Char} (mem : s ∈ startsAfter offset cs) :
    offset < s ∧ s ≤ offset + byteLength cs := by
  induction cs generalizing offset with
  | nil => exact nomatch mem
  | cons c cs ih =>
    have wide := c.utf8Size_pos
    have later (mem : s ∈ startsAfter (offset + c.utf8Size) cs) :
        offset < s ∧ s ≤ offset + byteLength (c :: cs) := by
      have bounds := ih mem
      simp only [byteLength]
      omega
    rw [startsAfter] at mem
    split at mem
    · rcases List.mem_cons.mp mem with rfl | mem
      · simp only [byteLength]
        omega
      · exact later mem
    · exact later mem

/-- **The last start in a text** is that of its last line, and there is one for each newline before it. -/
theorem starts_of_before (before : List Char) :
    ∃ earlier, 0 :: startsAfter 0 before = earlier ++ [byteLength (linesAbove before)] ∧
      earlier.length = before.count '\n' := by
  induction before using List.reverseRecOn with
  | nil => exact ⟨[], rfl, rfl⟩
  | append_singleton before c ih =>
    obtain ⟨earlier, starts, counted⟩ := ih
    rw [startsAfter_append, List.count_append, linesAbove]
    by_cases newline : c = '\n'
    · subst newline
      refine ⟨0 :: startsAfter 0 before, ?_, ?_⟩
      · rw [List.rdropWhile_concat_neg _ _ _ (by decide), byteLength_append, Nat.zero_add]
        rfl
      · rw [List.length_cons, length_startsAfter]
        rfl
    · refine ⟨earlier, ?_, ?_⟩
      · rw [List.rdropWhile_concat_pos _ _ _ (inLine_of_ne newline), startsAfter, if_neg newline]
        exact (congrArg (0 :: ·) (List.append_nil _)).trans starts
      · rw [counted, List.count_singleton, beq_eq_false_iff_ne.mpr newline]
        rfl

/-- **The next start in a text** is where its first line ends, and the newline. -/
theorem stop_of_rest (offset : Nat) (rest : List Char) :
    (match (startsAfter offset rest)[0]? with
      | some next => next - 1
      | none => offset + byteLength rest) = offset + byteLength (lineTail rest) := by
  induction rest generalizing offset with
  | nil => rfl
  | cons c rest ih =>
    rw [startsAfter, lineTail, List.takeWhile_cons]
    by_cases newline : c = '\n'
    · subst newline
      rfl
    · rw [if_neg newline, if_pos (inLine_of_ne newline), byteLength, byteLength, ← Nat.add_assoc, ← Nat.add_assoc]
      exact ih _

/-! ## The search -/

section Search

variable {starts : Array Nat} {low high : List Nat} {offset : Nat} (split : starts.toList = low ++ high)
  (below : ∀ s ∈ low, s ≤ offset) (above : ∀ s ∈ high, offset < s)
include split below above

/-- If the starts up to an offset stand in front of the others, their number tells them apart. -/
theorem start_le_iff {i : Nat} (known : i < starts.size) : starts[i] ≤ offset ↔ i < low.length := by
  have here : (low ++ high)[i]? = some starts[i] := by
    rw [← split, Array.getElem?_toList, Array.getElem?_eq_getElem known]
  by_cases front : i < low.length
  · rw [List.getElem?_append_left front] at here
    exact iff_of_true (below _ (List.mem_of_getElem? here)) front
  · rw [List.getElem?_append_right (Nat.le_of_not_lt front)] at here
    exact iff_of_false (Nat.not_le_of_lt (above _ (List.mem_of_getElem? here))) front

/-- **The search finds this number**, which stays between its bounds. -/
theorem search_eq {lo hi : Nat} (hhi : hi ≤ starts.size) (reached : lo ≤ low.length) (within : low.length ≤ hi) :
    search starts offset lo hi hhi = low.length := by
  fun_induction search starts offset lo hi hhi with
  | case1 lo hi hhi more middle passed ih =>
    exact ih ((start_le_iff split below above middle).mp passed) within
  | case2 lo hi hhi more middle missed ih =>
    exact ih reached (Nat.le_of_not_lt fun less => missed ((start_le_iff split below above middle).mpr less))
  | case3 lo hi hhi done => omega

end Search

/-! ## Lines and columns -/

/-- **All lines of a text, and all columns up to an offset, have 32-bit numbers**: there are not 2^32 - 1 newlines in
it, nor as many characters before a place on its line. -/
structure Numbered (text : List Char) (stop : Nat) : Prop where
  lines : text.count '\n' + 1 < UInt32.size
  columns : ∀ before rest, text = before ++ rest → byteLength before ≤ stop →
    (lineHead before).length + 1 < UInt32.size

/-- A text with fewer characters than that. -/
theorem Numbered.of_length {text : List Char} (h : text.length + 1 < UInt32.size) (stop : Nat) :
    Numbered text stop where
  lines := by
    have newlines : text.count '\n' ≤ text.length := List.count_le_length
    omega
  columns := by
    rintro before rest rfl -
    have onLine : (lineHead before).length ≤ before.length := (List.rtakeWhile_suffix _ _).length_le
    rw [List.length_append] at h
    omega

/-- In a text whose offsets have 32 bits no start is cut off. -/
theorem build_eq {text : List Char} (short : byteLength text < UInt32.size) :
    build text = ⟨text, (0 :: startsAfter 0 text).toArray⟩ := by
  have whole : (startsAfter 0 text).map (min · (UInt32.size - 1)) = startsAfter 0 text := by
    refine (List.map_congr_left fun start mem => ?_).trans (List.map_id _)
    have bound := (bounds_of_mem_startsAfter mem).2
    exact Nat.min_eq_left (by omega)
  show (⟨text, (0 :: (startsAfter 0 text).map (min · (UInt32.size - 1))).toArray⟩ : LineTable) = _
  rw [whole]

section Position

variable (before rest : List Char) (short : byteLength (before ++ rest) < UInt32.size)
include short

/-- The starts of a text, taken apart at an offset. -/
theorem starts_build : (build (before ++ rest)).starts.toList =
    (0 :: startsAfter 0 before) ++ startsAfter (byteLength before) rest := by
  rw [build_eq short, startsAfter_append, Nat.zero_add]
  rfl

/-- The number of lines before an offset that is past the starts in the first part and has not reached those in the
second. -/
theorem linesBefore_of_between {offset : Nat} (passed : byteLength before ≤ offset)
    (missed : ∀ s ∈ startsAfter (byteLength before) rest, offset < s) :
    (build (before ++ rest)).linesBefore offset = before.count '\n' := by
  have count : (0 :: startsAfter 0 before).length = 1 + before.count '\n' := by
    rw [List.length_cons, length_startsAfter, Nat.add_comm]
  have found : search (build (before ++ rest)).starts offset 0 (build (before ++ rest)).starts.size
      (Nat.le_refl _) = (0 :: startsAfter 0 before).length := by
    refine search_eq (starts_build before rest short) ?_ missed _ (Nat.zero_le _) ?_
    · intro s mem
      rcases List.mem_cons.mp mem with rfl | mem
      · exact Nat.zero_le _
      · exact (bounds_of_mem_startsAfter mem).2.trans ((Nat.zero_add _).le.trans passed)
    · rw [← Array.length_toList, starts_build before rest short, List.length_append]
      exact Nat.le_add_right ..
  rw [linesBefore, found, count, Nat.add_sub_cancel_left]

/-- There are as many lines before an offset as there are newlines. -/
theorem linesBefore_build : (build (before ++ rest)).linesBefore (byteLength before) = before.count '\n' :=
  linesBefore_of_between before rest short (Nat.le_refl _) fun _ mem => (bounds_of_mem_startsAfter mem).1

/-- It starts after the lines above. -/
theorem lineStart?_build : (build (before ++ rest)).lineStart? (1 + before.count '\n') =
    some (byteLength (linesAbove before)) := by
  obtain ⟨earlier, starts, counted⟩ := starts_of_before before
  rw [lineStart?, if_neg (by omega), Nat.add_sub_cancel_left, ← Array.getElem?_toList, starts_build before rest short,
    starts, ← counted, List.append_assoc, List.getElem?_append_right (Nat.le_refl _), Nat.sub_self]
  rfl

variable (lines : (before ++ rest).count '\n' + 1 < UInt32.size)
include lines

/-- **The line of an offset** is one more than there are newlines before it. -/
theorem lineOf_build : (build (before ++ rest)).lineOf (byteLength before) = 1 + before.count '\n' := by
  rw [List.count_append] at lines
  rw [lineOf, linesBefore_build before rest short, ordinal_eq (by omega)]

/-- The start of the next line.  After the line with the largest number there is none. -/
theorem lineStart?_build_next : (build (before ++ rest)).lineStart? ((1 + before.count '\n' + 1) % UInt32.size) =
    (startsAfter (byteLength before) rest)[0]? := by
  have count : (0 :: startsAfter 0 before).length = 1 + before.count '\n' := by
    rw [List.length_cons, length_startsAfter, Nat.add_comm]
  have newlines : (before ++ rest).count '\n' = before.count '\n' + rest.count '\n' := List.count_append
  by_cases more : 1 + before.count '\n' + 1 < UInt32.size
  · rw [Nat.mod_eq_of_lt more, lineStart?, if_neg (Nat.succ_ne_zero _), Nat.add_sub_cancel, ← Array.getElem?_toList,
      starts_build before rest short, ← count, List.getElem?_append_right (Nat.le_refl _), Nat.sub_self]
  · have last : 1 + before.count '\n' + 1 = UInt32.size := by omega
    have none : startsAfter (byteLength before) rest = [] := by
      rw [← List.length_eq_zero_iff, length_startsAfter]
      omega
    rw [last, Nat.mod_self, none]
    rfl

/-- **The text of the line**: the end of what is before the offset, and the start of what comes after it. -/
theorem lineText_build : (build (before ++ rest)).lineText (1 + before.count '\n') =
    lineHead before ++ lineTail rest := by
  have whole : before ++ rest =
      linesAbove before ++ (lineHead before ++ lineTail rest) ++ rest.dropWhile inLine := by
    rw [← List.append_assoc, linesAbove_append_lineHead, List.append_assoc, lineTail_append]
  have stop : byteLength before + byteLength (lineTail rest) =
      byteLength (linesAbove before) + byteLength (lineHead before ++ lineTail rest) := by
    rw [byteLength_append, ← Nat.add_assoc, ← byteLength_append (linesAbove before), linesAbove_append_lineHead]
  have next := stop_of_rest (byteLength before) rest
  rw [← byteLength_append, stop] at next
  have cut := slice?_append (linesAbove before) (lineHead before ++ lineTail rest) (rest.dropWhile inLine)
  rw [← whole] at cut
  rw [lineText, lineStart?_build before rest short, lineStart?_build_next before rest short lines]
  refine (congrArg (fun stop => (slice? (before ++ rest) (byteLength (linesAbove before)) stop).getD []) next).trans ?_
  rw [cut]
  rfl

/-- **The position of an offset**: its line, and the number of what comes after the characters before it on the
line. -/
theorem position_build : (build (before ++ rest)).position (byteLength before) =
    (1 + before.count '\n', ordinal (lineHead before).length) := by
  have above : byteLength before = byteLength (linesAbove before) + byteLength (lineHead before) := by
    rw [← byteLength_append, linesAbove_append_lineHead]
  have cut : slice? (before ++ rest) (byteLength (linesAbove before)) (byteLength before) = some (lineHead before) := by
    have cut := slice?_append (linesAbove before) (lineHead before) rest
    rwa [linesAbove_append_lineHead, ← above] at cut
  have inside : min (byteLength before) (byteLength (before ++ rest)) = byteLength before := by
    rw [byteLength_append]
    exact Nat.min_eq_left (Nat.le_add_right ..)
  rw [position, lineOf_build before rest short lines, lineStart?_build before rest short]
  show (_, ordinal ((slice? (before ++ rest) (byteLength (linesAbove before))
    (min (byteLength before) (byteLength (before ++ rest)))).getD []).length) = _
  rw [inside, cut, Option.getD_some]

end Position

end LineTable

/-! ## Regions -/

section Region

variable {before region after : List Char}

theorem lineHead_append (within : ∀ c ∈ region, inLine c = true) :
    lineHead (before ++ region) = lineHead before ++ region := by
  rw [lineHead, List.rtakeWhile, List.reverse_append,
    List.takeWhile_append_of_pos fun c mem => within c (List.mem_reverse.mp mem), List.reverse_append,
    List.reverse_reverse]
  rfl

theorem lineTail_eq_self (within : ∀ c ∈ region, inLine c = true) : lineTail region = region :=
  List.takeWhile_eq_self_iff.mpr within

theorem lineTail_append_of_newline (newline : '\n' ∈ region) : lineTail (region ++ after) = lineTail region := by
  rw [lineTail, List.takeWhile_append, if_neg]
  · rfl
  · intro same
    have within := List.takeWhile_eq_self_iff.mp ((List.takeWhile_prefix inLine).eq_of_length same)
    exact nomatch within _ newline

/-- **Where the carets stand**: after what is before the region on its line, and under what the region has of it. -/
theorem caretRange_build (before region after : List Char)
    (short : byteLength (before ++ (region ++ after)) < UInt32.size)
    (numbered : LineTable.Numbered (before ++ (region ++ after)) (byteLength (before ++ region))) :
    caretRange (.build (before ++ (region ++ after))) ⟨byteLength before, byteLength (before ++ region)⟩ =
      ((lineHead before).length, max 1 (lineTail region).length) := by
  have start := LineTable.position_build before (region ++ after) short numbered.lines
  have text := LineTable.lineText_build before (region ++ after) short numbered.lines
  have front : byteLength before ≤ byteLength (before ++ region) := by
    rw [byteLength_append]
    exact Nat.le_add_right ..
  rw [ordinal_eq (numbered.columns before _ rfl front)] at start
  have apart : before ++ (region ++ after) = (before ++ region) ++ after := (List.append_assoc ..).symm
  have stopLine := LineTable.lineOf_build (before ++ region) after (apart ▸ short) (apart ▸ numbered.lines)
  have stop := LineTable.position_build (before ++ region) after (apart ▸ short) (apart ▸ numbered.lines)
  rw [ordinal_eq (numbered.columns (before ++ region) after apart (Nat.le_refl _))] at stop
  rw [List.append_assoc] at stopLine stop
  simp only [caretRange, start, text, stopLine, stop, List.length_append, Nat.add_sub_cancel_left]
  by_cases newline : '\n' ∈ region
  · -- the line ends inside the region, at the newline
    have lines : 0 < region.count '\n' := List.count_pos_iff.mpr newline
    have line : lineHead (before ++ lineTail region) = lineHead before ++ lineTail region :=
      lineHead_append fun _ mem => List.mem_takeWhile_imp mem
    have whole : before ++ (region ++ after) =
        (before ++ lineTail region) ++ (region.dropWhile inLine ++ after) := by
      rw [List.append_assoc, ← List.append_assoc (lineTail region), lineTail_append]
    have reached : byteLength (before ++ lineTail region) ≤ byteLength (before ++ region) := by
      have bytes := congrArg byteLength (lineTail_append region)
      rw [byteLength_append] at bytes
      rw [byteLength_append, byteLength_append]
      omega
    have fits : (lineHead before).length + (lineTail region).length + 1 ≤ UInt32.size - 1 := by
      have fits := numbered.columns _ _ whole reached
      rw [line, List.length_append] at fits
      exact Nat.le_sub_one_of_lt fits
    rw [if_neg (by rw [List.count_append]; omega), lineTail_append_of_newline newline, Nat.min_eq_left fits]
    exact Prod.ext (by simp) (by simp)
  · have within : ∀ c ∈ region, inLine c = true := inLine_of_not_mem newline
    rw [if_pos (by rw [List.count_append, List.count_eq_zero_of_not_mem newline]; rfl), lineHead_append within,
      lineTail_eq_self within]
    simp

end Region

/-! ## Reports -/

/-- A window takes the code apart. -/
theorem Span.Window.parts {code : List Char} {span : Span} (window : span.Window code) :
    ∃ before region after, code = before ++ (region ++ after) ∧
      span = ⟨byteLength before, byteLength (before ++ region)⟩ := by
  obtain ⟨ordered, -, ⟨before, rest, rfl, start⟩, before', after, same, stop⟩ := window
  obtain ⟨from', upto⟩ := span
  dsimp only at start stop ordered
  subst start stop
  rcases List.append_eq_append_iff.mp same with ⟨region, rfl, rfl⟩ | ⟨region, rfl, rfl⟩
  · exact ⟨before, region, after, rfl, rfl⟩
  · -- the part before the end is no shorter, so nothing is between the two
    rw [byteLength_append] at ordered
    obtain rfl : region = [] := byteLength_eq_zero (by omega)
    exact ⟨before', [], rest, by simp, by simp⟩

/-- There is one way to take a text apart at an offset. -/
theorem append_inj_of_byteLength {before rest before' rest' : List Char} (same : before ++ rest = before' ++ rest')
    (offset : byteLength before = byteLength before') : before = before' ∧ rest = rest' := by
  have front := takeBytes?_append before rest
  have back := dropBytes?_append before rest
  rw [same, offset] at front back
  exact ⟨Option.some.inj (front.symm.trans (takeBytes?_append before' rest')),
    Option.some.inj (back.symm.trans (dropBytes?_append before' rest'))⟩

/-- The excerpt without colors, of a source that is taken apart. -/
theorem renderExcerpt_eq (color : Color) (source : Source) {before region after : List Char}
    (code : source.code.toList = before ++ (region ++ after))
    (short : byteLength (before ++ (region ++ after)) < UInt32.size)
    (lines : (before ++ (region ++ after)).count '\n' + 1 < UInt32.size) :
    let span : Span := ⟨byteLength before, byteLength (before ++ region)⟩
    let line := 1 + before.count '\n'
    let pad := blanks (toString line).length
    let range := caretRange (.build (before ++ (region ++ after))) span
    renderExcerpt false color source span =
      pad ++ "--> " ++ s!"{source.name}:{line}:{ordinal (lineHead before).length}\n" ++
        (pad ++ " |") ++ "\n" ++
        (toString line ++ " | ") ++ String.ofList (lineHead before ++ lineTail (region ++ after)) ++ "\n" ++
        (pad ++ " | ") ++ blanks range.1 ++ String.ofList (List.replicate range.2 '^') ++ "\n" := by
  simp only [renderExcerpt, Color.paint, code, LineTable.position_build before _ short lines,
    LineTable.lineText_build before _ short lines, Bool.false_eq_true, if_false]

/-- **A report underlines the right text**, if the offsets, the lines, and the columns up to its end have 32 bits.  The
region is between two character boundaries of the source, and takes it apart into what is `before` it, the `region`
itself, and what comes `after`.  The report names the line and the column where the region starts, quotes this line,
and puts carets under the characters that the region has on it, or one caret if it has none. -/
theorem render_underlines {d : Diagnostic} {source : Source} {span : Span} (excerpt : d.excerpt = some (source, span))
    (window : span.Window source.code.toList) (short : byteLength source.code.toList < UInt32.size)
    (numbered : LineTable.Numbered source.code.toList span.stop) :
    ∃ before region after, source.code.toList = before ++ (region ++ after) ∧
      span = ⟨byteLength before, byteLength (before ++ region)⟩ ∧
      let line := 1 + before.count '\n'
      let column := 1 + (lineHead before).length
      let carets := max 1 (lineTail region).length
      let pad := blanks (toString line).length
      d.render false =
        d.severity.title ++ ": " ++ d.message ++ "\n" ++
        (pad ++ "--> " ++ s!"{source.name}:{line}:{column}\n" ++
          (pad ++ " |") ++ "\n" ++
          (toString line ++ " | ") ++ String.ofList (lineHead before ++ lineTail (region ++ after)) ++ "\n" ++
          (pad ++ " | ") ++ blanks (column - 1) ++ String.ofList (List.replicate carets '^') ++ "\n") ++
        String.join (d.notes.map fun note => "  = note" ++ ": " ++ note ++ "\n") := by
  obtain ⟨before, region, after, code, rfl⟩ := window.parts
  rw [code] at short numbered
  have front : byteLength before ≤ byteLength (before ++ region) := by
    rw [byteLength_append]
    exact Nat.le_add_right ..
  refine ⟨before, region, after, code, rfl, ?_⟩
  simp only [Diagnostic.render, excerpt, renderExcerpt_eq d.severity.color source code short numbered.lines,
    ordinal_eq (numbered.columns before _ rfl front), caretRange_build before region after short numbered, Color.paint,
    Bool.false_eq_true, if_false, Nat.add_sub_cancel_left]

/-- The region starts in the second line, after characters of two bytes, and goes on into the third line. -/
theorem render_underlines_two_lines :
    let code := "put é\nput ü $x\nput b"
    let d : Diagnostic := ⟨.compileError, "no", some (.interactive code, ⟨11, 20⟩), []⟩
    d.render false = "compile error: no\n --> [interactive]:2:5\n  |\n2 | put ü $x\n  |     ^^^^\n" := by
  intro code d
  have window : Span.Window code.toList ⟨11, 20⟩ := .of_boundaries
    ⟨"put é\nput ".toList, "ü $x\nput b".toList, by decide +kernel, by decide +kernel⟩
    ⟨"put é\nput ü $x\nput".toList, " b".toList, by decide +kernel, by decide +kernel⟩ (by decide)
  obtain ⟨before, region, after, parts, span, renders⟩ := render_underlines (d := d) rfl window (by decide +kernel)
    (.of_length (by decide +kernel) _)
  obtain ⟨start, stop⟩ := Span.mk.inj span
  -- the two offsets determine the parts
  have cut : code.toList = "put é\nput ".toList ++ ("ü $x\nput".toList ++ " b".toList) := by decide +kernel
  have eleven : byteLength "put é\nput ".toList = 11 := by decide +kernel
  have nine : byteLength "ü $x\nput".toList = 9 := by decide +kernel
  obtain ⟨rfl, rest⟩ := append_inj_of_byteLength (parts.symm.trans cut) (start.symm.trans eleven.symm)
  rw [byteLength_append, eleven] at stop
  obtain ⟨rfl, rfl⟩ := append_inj_of_byteLength rest (by omega)
  rw [renders]
  decide +kernel

/-! ## A line that is too long -/

section LongLine

variable {n : Nat} {code : String} (letters : code.toList = List.replicate n 'a')
include letters

/-- All of it is on the first line. -/
theorem lineHead_letters : lineHead code.toList = code.toList := by
  refine List.rtakeWhile_eq_self_iff.mpr fun c mem => ?_
  rw [letters] at mem
  rw [List.eq_of_mem_replicate mem]
  rfl

theorem byteLength_letters : byteLength code.toList = n := by
  rw [letters]
  exact byteLength_replicate rfl n

/-- The region at its end is one of the source. -/
theorem window_letters : Span.Window code.toList ⟨n, n⟩ := by
  have stop : IsBoundary code.toList n := ⟨code.toList, [], (List.append_nil _).symm, (byteLength_letters letters).symm⟩
  exact .of_boundaries stop stop (Nat.le_refl n)

/-- At the end of a line of 2^32 - 1 letters the column is printed as `0`, and the caret is at the start of the
line. -/
theorem renderExcerpt_column_zero (full : n + 1 = UInt32.size) (color : Color) :
    renderExcerpt false color (.interactive code) ⟨n, n⟩ =
      " --> [interactive]:1:0\n  |\n1 | " ++ code ++ "\n  | ^\n" := by
  have bytes := byteLength_letters letters
  have head := lineHead_letters letters
  have newlines : code.toList.count '\n' = 0 := by
    rw [letters]
    exact List.count_eq_zero_of_not_mem fun mem => nomatch List.eq_of_mem_replicate mem
  have size : code.toList.length = n := by rw [letters, List.length_replicate]
  have whole : code.toList ++ ([] ++ []) = code.toList := List.append_nil _
  have short : byteLength (code.toList ++ ([] ++ [])) < UInt32.size := by
    rw [whole, bytes]
    omega
  have lines : (code.toList ++ ([] ++ [])).count '\n' + 1 < UInt32.size := by
    rw [whole, newlines]
    decide
  have column : ordinal n = 0 := by
    obtain rfl : n = UInt32.size - 1 := by omega
    rfl
  have position := LineTable.position_build code.toList ([] ++ []) short lines
  rw [whole, newlines, bytes, head, size, column] at position
  have sameLine : (LineTable.build code.toList).lineOf n = 1 + 0 := congrArg Prod.fst position
  have range : caretRange (.build code.toList) ⟨n, n⟩ = (0, 1) := by
    simp only [caretRange, position, sameLine, if_true]
    rfl
  have excerpt := renderExcerpt_eq color (.interactive code) whole.symm short lines
  rw [List.append_nil code.toList, whole, bytes, newlines, head, size, column] at excerpt
  simp only [range] at excerpt
  have quoted : String.ofList (code.toList ++ lineTail ([] ++ [])) = code := by
    rw [List.append_nil, show lineTail [] = [] from rfl, List.append_nil, String.ofList_toList]
  rw [excerpt, quoted]
  have front : blanks (toString (1 + 0)).length ++ "--> " ++
      ("[interactive]" ++ ":" ++ toString (1 + 0) ++ ":" ++ toString 0 ++ "\n") ++
        (blanks (toString (1 + 0)).length ++ " |") ++ "\n" ++ (toString (1 + 0) ++ " | ") =
      " --> [interactive]:1:0\n  |\n1 | " := by decide +kernel
  exact (congrArg (· ++ code ++ "\n" ++ (blanks (toString (1 + 0)).length ++ " | ") ++ blanks 0 ++
    String.ofList (List.replicate 1 '^') ++ "\n") front).trans (by simp only [String.append_assoc]; rfl)

/-- The whole report. -/
theorem render_column_zero (full : n + 1 = UInt32.size) :
    (⟨.compileError, "no", some (.interactive code, ⟨n, n⟩), []⟩ : Diagnostic).render false =
      "compile error: no\n --> [interactive]:1:0\n  |\n1 | " ++ code ++ "\n  | ^\n" := by
  have excerpt := renderExcerpt_column_zero letters full Severity.compileError.color
  show "compile error" ++ ": " ++ "no" ++ "\n" ++ renderExcerpt false _ (.interactive code) ⟨n, n⟩ ++ "" = _
  rw [excerpt, String.append_empty]
  simp only [← String.append_assoc]
  rfl

end LongLine

/-- **The column that has no number.**  One line of 2^32 - 1 letters, and the empty region at its end: the source has
fewer than 2^32 bytes, the region is one of the source, and its column is 2^32.  The report names the column `0` and
has its caret at the start of the line. -/
theorem render_misses_last_column :
    let code := String.ofList (List.replicate (UInt32.size - 1) 'a')
    let span : Span := ⟨UInt32.size - 1, UInt32.size - 1⟩
    byteLength code.toList < UInt32.size ∧ span.Window code.toList ∧
      (∀ before rest, code.toList = before ++ rest → byteLength before = span.start →
        1 + (lineHead before).length = UInt32.size) ∧
      (⟨.compileError, "no", some (.interactive code, span), []⟩ : Diagnostic).render false =
        "compile error: no\n --> [interactive]:1:0\n  |\n1 | " ++ code ++ "\n  | ^\n" := by
  intro code span
  have letters : code.toList = List.replicate (UInt32.size - 1) 'a' := String.toList_ofList
  have bytes := byteLength_letters letters
  refine ⟨bytes.trans_lt (by decide), window_letters letters, ?_, render_column_zero letters (by decide)⟩
  intro before rest same start
  obtain ⟨rfl, rfl⟩ := append_inj_of_byteLength ((List.append_nil _).trans same) (bytes.trans start.symm)
  rw [lineHead_letters letters, letters, List.length_replicate, Nat.add_sub_of_le (by decide)]

end ValueShell
