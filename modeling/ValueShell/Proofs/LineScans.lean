/-
  The table of line starts against a scan of the text.

  The number of a line could be found by going through the bytes before an offset and counting the newlines, and the
  line itself by splitting the text.  The table does neither: it is searched by halving, and a line is cut out between
  two starts.  Here the two ways are compared, for every offset, also one inside a character or past the end.

    * An offset cuts the text behind the last character that ends at or before it (`CutAt`).  The starts up to the
      offset are those of the part before the cut, since a start is where a character ends.  The newlines among the
      bytes up to the offset are those of this part as well: of the character that the offset is inside of come only
      some bytes, so it has several, and none of these is a newline (`Utf8.newline_not_mem`).
    * Every piece of the split text starts at a cut with as many newlines before it as there are pieces
      (`exists_line`), and so the table has its start, and cuts out the rest of the line from there.
-/
import ValueShell.Proofs.Underlines
import ValueShell.Text.Split
import ValueShell.Text.Utf8

namespace ValueShell

/-! ## Newlines among bytes -/

namespace Utf8

/-- No other character has the byte of a newline. -/
theorem newline_not_mem {c : Char} (other : c ≠ '\n') : '\n'.toUInt8 ∉ String.utf8EncodeChar c := by
  have code : c.val.toNat ≠ 10 := fun same => other (Char.toNat_inj.mp same)
  have apart {n : Nat} (bound : n < 256) (h : n ≠ 10) : '\n'.toUInt8 ≠ UInt8.ofNat n := by
    intro same
    have number := congrArg UInt8.toNat same
    rw [UInt8.toNat_ofNat', Nat.mod_eq_of_lt bound] at number
    exact h number.symm
  intro mem
  rw [String.utf8EncodeChar.eq_1] at mem
  -- a character of several bytes has bytes from 128 on
  split at mem
  · exact apart (by omega) code (List.mem_singleton.mp mem)
  · split at mem
    · simp only [List.mem_cons, List.not_mem_nil, or_false] at mem
      rcases mem with same | same <;> exact apart (by omega) (by omega) same
    · split at mem
      · simp only [List.mem_cons, List.not_mem_nil, or_false] at mem
        rcases mem with same | same | same <;> exact apart (by omega) (by omega) same
      · simp only [List.mem_cons, List.not_mem_nil, or_false] at mem
        rcases mem with same | same | same | same <;> exact apart (by omega) (by omega) same

theorem length_encode (cs : List Char) : (encode cs).length = byteLength cs := by
  induction cs with
  | nil => rfl
  | cons c cs ih =>
    rw [encode, List.flatMap_cons, List.length_append, String.length_utf8EncodeChar]
    exact congrArg (c.utf8Size + ·) ih

/-- The bytes have as many newlines as the text. -/
theorem count_encode (cs : List Char) : (encode cs).count '\n'.toUInt8 = cs.count '\n' := by
  induction cs with
  | nil => rfl
  | cons c cs ih =>
    rw [encode, List.flatMap_cons, List.count_append]
    show _ + (encode cs).count '\n'.toUInt8 = _
    rw [ih]
    by_cases newline : c = '\n'
    · rw [newline, List.count_cons_self]
      exact Nat.add_comm _ _
    · rw [List.count_eq_zero_of_not_mem (newline_not_mem newline), List.count_cons_of_ne newline, Nat.zero_add]

end Utf8

namespace LineTable

/-! ## Cuts at an offset -/

/-- **The text is cut at the offset**: what is before the cut ends there or earlier, and the next character ends
later. -/
structure CutAt (offset : Nat) (before rest : List Char) : Prop where
  reached : byteLength before ≤ offset
  inside : ∀ c cs, rest = c :: cs → offset < byteLength before + c.utf8Size

/-- Every offset cuts the text. -/
theorem exists_cut (text : List Char) (offset : Nat) : ∃ before rest, text = before ++ rest ∧ CutAt offset before rest := by
  induction text generalizing offset with
  | nil => exact ⟨[], [], rfl, Nat.zero_le _, nofun⟩
  | cons c text ih =>
    by_cases fits : c.utf8Size ≤ offset
    · obtain ⟨before, rest, rfl, reached, inside⟩ := ih (offset - c.utf8Size)
      refine ⟨c :: before, rest, rfl, ?_, ?_⟩
      · rw [byteLength]
        omega
      · intro next cs same
        have later := inside next cs same
        rw [byteLength]
        omega
    · refine ⟨[], c :: text, rfl, Nat.zero_le _, ?_⟩
      intro next cs same
      obtain ⟨rfl, -⟩ := List.cons.inj same
      rw [byteLength]
      omega

namespace CutAt

variable {offset : Nat} {before rest : List Char}

/-- The starts after the cut are after the offset. -/
theorem starts_later (h : CutAt offset before rest) : ∀ s ∈ startsAfter (byteLength before) rest, offset < s := by
  intro s mem
  cases rest with
  | nil => exact nomatch mem
  | cons c cs =>
    have ends : offset < byteLength before + c.utf8Size := h.inside c cs rfl
    have later (mem : s ∈ startsAfter (byteLength before + c.utf8Size) cs) : offset < s :=
      ends.trans (bounds_of_mem_startsAfter mem).1
    rw [startsAfter] at mem
    split at mem
    · rcases List.mem_cons.mp mem with rfl | mem
      · exact ends
      · exact later mem
    · exact later mem

/-- **The newlines among the bytes up to the offset** are those before the cut. -/
theorem count_bytes (h : CutAt offset before rest) :
    ((Utf8.encode (before ++ rest)).take offset).count '\n'.toUInt8 = before.count '\n' := by
  have reached := h.reached
  have front : ((Utf8.encode before).take offset) = Utf8.encode before :=
    List.take_of_length_le ((Utf8.length_encode before).le.trans reached)
  rw [Utf8.encode_append, List.take_append, front, Utf8.length_encode, List.count_append, Utf8.count_encode]
  suffices ((Utf8.encode rest).take (offset - byteLength before)).count '\n'.toUInt8 = 0 by
    rw [this, Nat.add_zero]
  cases rest with
  | nil => simp [Utf8.encode]
  | cons c cs =>
    have ends : offset < byteLength before + c.utf8Size := h.inside c cs rfl
    have some : offset - byteLength before ≤ (String.utf8EncodeChar c).length := by
      rw [String.length_utf8EncodeChar]
      omega
    rw [Utf8.encode, List.flatMap_cons, List.take_append_of_le_length some]
    refine List.count_eq_zero_of_not_mem fun mem => ?_
    by_cases newline : c = '\n'
    · -- a newline has one byte, which is not before the offset
      have one : c.utf8Size = 1 := by rw [newline]; rfl
      have none : offset - byteLength before = 0 := by omega
      rw [none] at mem
      exact nomatch mem
    · exact Utf8.newline_not_mem newline (List.mem_of_mem_take mem)

end CutAt

/-- **The line of an offset by counting bytes.** -/
theorem lineOf_eq {text : List Char} (short : byteLength text < UInt32.size) (offset : Nat) :
    (build text).lineOf offset = ordinal (((Utf8.encode text).take offset).count '\n'.toUInt8) := by
  obtain ⟨before, rest, rfl, cut⟩ := exists_cut text offset
  rw [lineOf, linesBefore_of_between before rest short cut.reached cut.starts_later, cut.count_bytes]

/-! ## The pieces of a text -/

/-- A line after a newline does not go on before it. -/
theorem lineHead_append_newline (before line : List Char) : lineHead (before ++ '\n' :: line) = lineHead line := by
  induction line using List.reverseRecOn with
  | nil => exact List.rtakeWhile_concat_neg _ _ _ nofun
  | append_singleton line c ih =>
    rw [← List.cons_append, ← List.append_assoc]
    by_cases within : inLine c = true
    · rw [lineHead, lineHead, List.rtakeWhile_concat_pos _ _ _ within, List.rtakeWhile_concat_pos _ _ _ within]
      exact congrArg (· ++ [c]) ih
    · rw [lineHead, lineHead, List.rtakeWhile_concat_neg _ _ _ within, List.rtakeWhile_concat_neg _ _ _ within]

/-- The first line goes up to the newline. -/
theorem lineTail_append_newline {line : List Char} (h : '\n' ∉ line) (rest : List Char) :
    lineTail (line ++ '\n' :: rest) = line := by
  rw [lineTail, List.takeWhile_append_of_pos (inLine_of_not_mem h)]
  exact List.append_nil line

/-- **Where a piece starts**: behind as many newlines as there are pieces before it. -/
theorem exists_line {pieces : List (List Char)} (whole : ∀ piece ∈ pieces, '\n' ∉ piece) {i : Nat}
    (known : i < pieces.length) : ∃ before rest, joinWith '\n' pieces = before ++ rest ∧ before.count '\n' = i ∧
      lineHead before = [] ∧ lineTail rest = pieces[i] := by
  induction pieces generalizing i with
  | nil => exact absurd known (Nat.not_lt_zero i)
  | cons piece pieces ih =>
    have here : '\n' ∉ piece := whole piece List.mem_cons_self
    cases pieces with
    | nil =>
      obtain rfl : i = 0 := by simpa using known
      exact ⟨[], piece, rfl, rfl, rfl, lineTail_eq_self (inLine_of_not_mem here)⟩
    | cons next more =>
      have joined : joinWith '\n' (piece :: next :: more) = piece ++ '\n' :: joinWith '\n' (next :: more) := rfl
      cases i with
      | zero => exact ⟨[], _, rfl, rfl, rfl, lineTail_append_newline here _⟩
      | succ i =>
        obtain ⟨before, rest, same, count, head, tail⟩ :=
          ih (fun piece mem => whole piece (List.mem_cons_of_mem _ mem)) (Nat.lt_of_succ_lt_succ known)
        refine ⟨piece ++ '\n' :: before, rest, ?_, ?_, ?_, tail⟩
        · rw [joined, same, List.append_assoc]
          rfl
        · rw [List.count_append, List.count_eq_zero_of_not_mem here, List.count_cons_self, count, Nat.zero_add]
        · rw [lineHead_append_newline, head]

/-- There are as many lines as pieces. -/
theorem lineCount_build (text : List Char) : (build text).lineCount = (splitOn '\n' text).length := by
  show (0 :: (startsAfter 0 text).map (min · (UInt32.size - 1))).toArray.size = _
  rw [List.size_toArray, List.length_cons, List.length_map, length_startsAfter, length_splitOn, Nat.add_comm]

section Lines

variable {text : List Char} (short : byteLength text < UInt32.size) (lines : text.count '\n' + 1 < UInt32.size)
include short lines

/-- **A line is a piece of the text.** -/
theorem lineText_succ (i : Nat) : (build text).lineText (i + 1) = (splitOn '\n' text)[i]?.getD [] := by
  by_cases known : i < (splitOn '\n' text).length
  · obtain ⟨before, rest, joined, count, head, tail⟩ := exists_line (fun _ => not_mem_splitOn) known
    have whole : text = before ++ rest := (joinWith_splitOn '\n' text).symm.trans joined
    have line := lineText_build before rest (whole ▸ short) (whole ▸ lines)
    rw [← whole, count, head, tail, Nat.add_comm] at line
    rw [line, List.getElem?_eq_getElem known]
    rfl
  · have none : (build text).lineStart? (i + 1) = none := by
      have size : (build text).starts.size ≤ i := (lineCount_build text).le.trans (Nat.le_of_not_lt known)
      rw [lineStart?, if_neg (Nat.succ_ne_zero i)]
      exact Array.getElem?_eq_none size
    rw [lineText, none, List.getElem?_eq_none (Nat.le_of_not_lt known)]
    rfl

/-- All lines, in order. -/
theorem map_lineText :
    (List.range (build text).lineCount).map (fun i => (build text).lineText (i + 1)) = splitOn '\n' text := by
  refine List.ext_getElem ?_ ?_
  · rw [List.length_map, List.length_range, lineCount_build]
  · intro i inRange known
    rw [List.getElem_map, List.getElem_range, lineText_succ short lines, List.getElem?_eq_getElem known]
    rfl

end Lines

/-- **The table agrees with a scan of the text**, if the text has fewer than 2^32 bytes and all its lines have 32-bit
numbers.  The line of an offset, which may be inside a character or past the end, is one more than there are newlines
among the bytes before it.  The text of a line is the piece of this number of the text split at newlines, and empty if
there is none; so all lines with newlines between them are the text.  No start is past the end. -/
theorem lines_scanned {text : List Char} (short : byteLength text < UInt32.size)
    (lines : text.count '\n' + 1 < UInt32.size) :
    (∀ offset, (build text).lineOf offset = 1 + ((Utf8.encode text).take offset).count '\n'.toUInt8) ∧
    (∀ line, (build text).lineText line = if line = 0 then [] else (splitOn '\n' text)[line - 1]?.getD []) ∧
    (build text).lineCount = (splitOn '\n' text).length ∧
    joinWith '\n' ((List.range (build text).lineCount).map fun i => (build text).lineText (i + 1)) = text ∧
    (∀ start ∈ (build text).starts.toList, start ≤ (Utf8.encode text).length) := by
  refine ⟨?_, ?_, lineCount_build text, ?_, ?_⟩
  · intro offset
    have some : ((Utf8.encode text).take offset).count '\n'.toUInt8 ≤ text.count '\n' :=
      ((List.take_sublist ..).count_le _).trans (Utf8.count_encode text).le
    rw [lineOf_eq short, ordinal_eq (by omega)]
  · intro line
    cases line with
    | zero => rfl
    | succ i =>
      rw [if_neg (Nat.succ_ne_zero i), Nat.add_sub_cancel]
      exact lineText_succ short lines i
  · rw [map_lineText short lines, joinWith_splitOn]
  · intro start mem
    rw [build_eq short] at mem
    rw [Utf8.length_encode]
    rcases List.mem_cons.mp mem with rfl | mem
    · exact Nat.zero_le _
    · exact (bounds_of_mem_startsAfter mem).2.trans_eq (Nat.zero_add _)

/-- A text with an empty line and a character of two bytes, and no newline at its end. -/
theorem lines_scanned_of_three :
    let text := "é\n\nb".toList
    (List.range 7).map (build text).lineOf = [1, 1, 1, 2, 3, 3, 3] ∧
      (build text).lineText 1 = "é".toList ∧ (build text).lineText 3 = "b".toList ∧ (build text).lineText 4 = [] := by
  intro text
  have short : byteLength text < UInt32.size := by decide +kernel
  have lines : text.count '\n' + 1 < UInt32.size := by decide +kernel
  obtain ⟨scan, pieces, -⟩ := lines_scanned short lines
  refine ⟨?_, (pieces 1).trans ?_, (pieces 3).trans ?_, (pieces 4).trans ?_⟩
  · rw [List.map_congr_left fun offset _ => scan offset]
    decide +kernel
  all_goals decide +kernel

/-! ## A text with too many lines -/

section Newlines

variable {n : Nat} (full : n + 1 = UInt32.size)

theorem byteLength_newlines (n : Nat) : byteLength (List.replicate n '\n') = n := byteLength_replicate rfl n

/-- All newlines are before the end. -/
theorem count_newlines (n : Nat) : ((Utf8.encode (List.replicate n '\n')).take n).count '\n'.toUInt8 = n := by
  rw [List.take_of_length_le ((Utf8.length_encode _).trans (byteLength_newlines n)).le, Utf8.count_encode,
    List.count_replicate_self]

include full

/-- After 2^32 - 1 newlines the line has the number `0`. -/
theorem lineOf_zero : (build (List.replicate n '\n')).lineOf n = 0 := by
  have bytes := byteLength_newlines n
  rw [lineOf_eq (by omega), count_newlines]
  obtain rfl : n = UInt32.size - 1 := by omega
  rfl

/-- The line before it goes on to the end of the text, and is not empty. -/
theorem lineText_last : (build (List.replicate n '\n')).lineText n = ['\n'] := by
  obtain ⟨m, rfl⟩ : ∃ m, n = m + 1 := by
    cases n with
    | zero => exact absurd full (by decide)
    | succ m => exact ⟨m, rfl⟩
  have apart : List.replicate (m + 1) '\n' = List.replicate m '\n' ++ ['\n'] := List.replicate_succ'
  have bytes := byteLength_newlines (m + 1)
  have front := byteLength_newlines m
  have above : linesAbove (List.replicate m '\n') = List.replicate m '\n' := by
    cases m with
    | zero => rfl
    | succ m => exact List.replicate_succ' ▸ List.rdropWhile_concat_neg _ _ _ (by decide)
  rw [apart] at bytes
  have start := lineStart?_build (List.replicate m '\n') ['\n'] (by omega)
  rw [List.count_replicate_self, above, front, Nat.add_comm] at start
  have cut := slice?_append (List.replicate m '\n') ['\n'] []
  rw [List.append_nil, ← byteLength_append, bytes, front] at cut
  rw [apart, lineText, start, full, Nat.mod_self]
  show (slice? (List.replicate m '\n' ++ ['\n']) m (byteLength (List.replicate m '\n' ++ ['\n']))).getD [] = _
  rw [bytes, cut]
  rfl

end Newlines

/-- **The line that has no number.**  A text of 2^32 - 1 newlines has fewer than 2^32 bytes.  All its newlines are
before its end, which is in the line `0` by the table, and the line before this one has a newline in it, while all
pieces of the text are empty. -/
theorem last_line_misses_number :
    let text := List.replicate (UInt32.size - 1) '\n'
    byteLength text < UInt32.size ∧
      ((Utf8.encode text).take (UInt32.size - 1)).count '\n'.toUInt8 = UInt32.size - 1 ∧
      (build text).lineOf (UInt32.size - 1) = 0 ∧
      (build text).lineText (UInt32.size - 1) = ['\n'] ∧ ∀ piece ∈ splitOn '\n' text, '\n' ∉ piece := by
  intro text
  have bytes : byteLength text = UInt32.size - 1 := byteLength_newlines _
  exact ⟨bytes.trans_lt (by decide), count_newlines _, lineOf_zero (by decide), lineText_last (by decide),
    fun piece => not_mem_splitOn⟩

end LineTable

end ValueShell
