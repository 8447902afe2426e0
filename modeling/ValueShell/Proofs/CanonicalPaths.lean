/-
  One key for each module.

  A module is cached under the canonical form of its path, so the form must not depend on how the path was put
  together.  Two facts about the stack of segments carry this.

    * What is on the stack is a NORMAL FORM: names, and below them steps up, which the root does not have
      (`Cancelled`).  Walking along it again builds the same stack (`Cancelled.walk_reverse`), and so the canonical
      form of a canonical form is itself.
    * The normal form of a row of segments does to every stack WHAT THE ROW DOES (`walk_cancelled`).  A name and the
      step up that takes it away leave the stack below as it was, whatever it was; a step up that finds no name is
      kept, and finds its name later, when the row is walked from somewhere else.  Here the row must not start at the
      root, where such a step is dropped.

  So both parts of a joined path may be cleaned first (`clean_append_left`, `clean_append_right`).  A relative import
  joins its target to the directory of the importing module, and that directory is the module's path and one step up
  (`clean_directory`).  Hence a chain of imports ends at the key of the path that is written out along the chain
  (`Reached.key_eq`).
-/
import ValueShell.Proofs.LibraryPaths

namespace ValueShell

namespace ModulePath

/-! ## One step -/

/-- Each segment leads nowhere, goes up, or enters a name. -/
theorem segment_cases (segment : List Char) :
    (segment = [] ∨ segment = ['.']) ∨ segment = up ∨ IsName segment := by
  by_cases nowhere : segment = [] ∨ segment = ['.']
  · exact .inl nowhere
  · by_cases goesUp : segment = up
    · exact .inr (.inl goesUp)
    · exact .inr (.inr ⟨fun h => nowhere (.inl h), fun h => nowhere (.inr h), goesUp⟩)

section Push

variable (rooted : Bool) (stack : List (List Char)) {segment name : List Char}

/-- Empty segments and single dots lead nowhere. -/
theorem push_nowhere (h : segment = [] ∨ segment = ['.']) : push rooted stack segment = stack := if_pos h

/-- A name leads one further down. -/
theorem push_name (h : IsName name) : push rooted stack name = name :: stack := by
  have somewhere : ¬(name = [] ∨ name = ['.']) := fun nowhere => nowhere.elim h.1 h.2.1
  unfold push
  rw [if_neg somewhere, if_neg h.2.2]

/-- Going up depends on what is on top. -/
theorem push_up_cons (top : List Char) : push rooted (top :: stack) up =
    if top = up then (if rooted then top :: stack else up :: top :: stack) else stack := by
  have somewhere : ¬(up = [] ∨ up = ['.']) := by decide
  unfold push
  rw [if_neg somewhere, if_pos rfl]

/-- Going up takes the name on top away. -/
theorem push_up_name (h : IsName name) : push rooted (name :: stack) up = stack := by
  rw [push_up_cons, if_neg h.2.2]

/-- Where there is no name, going up is kept. -/
theorem push_up (h : ∀ segment ∈ stack, segment = up) : push false stack up = up :: stack := by
  cases stack with
  | nil => rfl
  | cons top rest => rw [push_up_cons, if_pos (h top List.mem_cons_self), if_neg Bool.false_ne_true]

/-- Nothing comes onto the stack but the segment. -/
theorem mem_push {other : List Char} (h : other ∈ push rooted stack segment) : other ∈ stack ∨ other = segment := by
  rcases segment_cases segment with nowhere | rfl | name
  · rw [push_nowhere _ _ nowhere] at h
    exact .inl h
  · cases stack with
    | nil =>
      cases rooted with
      | true => exact .inl h
      | false => exact .inr (List.mem_singleton.mp h)
    | cons top rest =>
      rw [push_up_cons] at h
      split at h
      · split at h
        · exact .inl h
        · exact (List.mem_cons.mp h).symm
      · exact .inl (List.mem_cons_of_mem _ h)
  · rw [push_name _ _ name] at h
    exact (List.mem_cons.mp h).symm

end Push

/-! ## A row of steps -/

/-- The stack after a row of segments. -/
def walk (rooted : Bool) (stack row : List (List Char)) : List (List Char) := row.foldl (push rooted) stack

/-- The segments are what is left on the stack after the walk. -/
theorem segments_eq (path : List Char) :
    segments path = (walk (isRooted path) [] (splitOn '/' path)).reverse := rfl

/-- A walk can be taken up where another one has ended. -/
theorem walk_append (rooted : Bool) (stack row more : List (List Char)) :
    walk rooted stack (row ++ more) = walk rooted (walk rooted stack row) more := List.foldl_append

theorem walk_concat (rooted : Bool) (stack row : List (List Char)) (segment : List Char) :
    walk rooted stack (row ++ [segment]) = push rooted (walk rooted stack row) segment :=
  walk_append rooted stack row [segment]

/-- A segment that leads nowhere may be left out. -/
theorem walk_nowhere (rooted : Bool) (stack row : List (List Char)) {segment : List Char}
    (h : segment = [] ∨ segment = ['.']) : walk rooted stack (segment :: row) = walk rooted stack row := by
  show walk rooted (push rooted stack segment) row = _
  rw [push_nowhere _ _ h]

/-- Nothing comes onto the stack but what was there and what is in the row. -/
theorem mem_walk {rooted : Bool} {stack row : List (List Char)} {segment : List Char}
    (h : segment ∈ walk rooted stack row) : segment ∈ stack ∨ segment ∈ row := by
  induction row using List.reverseRecOn with
  | nil => exact .inl h
  | append_singleton row last ih =>
    rw [walk_concat] at h
    rcases mem_push _ _ h with h | rfl
    · exact (ih h).imp_right (List.mem_append_left _)
    · exact .inr (List.mem_append_right _ List.mem_cons_self)

/-! ## The normal form -/

/-- **Nothing on the stack can be cancelled**: names are on top, the last one first, and below them are the steps up
that found no name.  At the root there are none of these. -/
inductive Cancelled (rooted : Bool) : List (List Char) → Prop
  | start : Cancelled rooted []
  | climbed {stack : List (List Char)} : rooted = false → Cancelled rooted stack → (∀ segment ∈ stack, segment = up) →
      Cancelled rooted (up :: stack)
  | entered {name : List Char} {stack : List (List Char)} : IsName name → Cancelled rooted stack →
      Cancelled rooted (name :: stack)

namespace Cancelled

variable {rooted : Bool} {stack : List (List Char)}

/-- No step leaves a name below a double dot, -/
theorem push (h : Cancelled rooted stack) (segment : List Char) :
    Cancelled rooted (ModulePath.push rooted stack segment) := by
  rcases segment_cases segment with nowhere | rfl | name
  · rwa [push_nowhere _ _ nowhere]
  · cases h with
    | start =>
      cases rooted with
      | true => exact .start
      | false => exact .climbed rfl .start nofun
    | climbed notRooted below ups =>
      subst notRooted
      have more : ∀ segment ∈ up :: _, segment = up := List.forall_mem_cons.mpr ⟨rfl, ups⟩
      rw [push_up _ more]
      exact .climbed rfl (.climbed rfl below ups) more
    | entered name below => rwa [push_up_name _ _ name]
  · rw [push_name _ _ name]
    exact .entered name h

/-- and so no walk does. -/
theorem walk (h : Cancelled rooted stack) (row : List (List Char)) :
    Cancelled rooted (ModulePath.walk rooted stack row) := by
  induction row generalizing stack with
  | nil => exact h
  | cons segment row ih => exact ih (h.push segment)

/-- **A normal form is built again by walking along it.** -/
theorem walk_reverse (h : Cancelled rooted stack) : ModulePath.walk rooted [] stack.reverse = stack := by
  induction h with
  | start => rfl
  | climbed notRooted below ups ih =>
    subst notRooted
    rw [List.reverse_cons, walk_concat, ih, push_up _ ups]
  | entered name below ih => rw [List.reverse_cons, walk_concat, ih, push_name _ _ name]

/-- The parts of a normal form. -/
theorem parts (h : Cancelled rooted stack) : ∃ above names, stack.reverse = List.replicate above up ++ names ∧
    (∀ name ∈ names, IsName name) ∧ (rooted = true → above = 0) := by
  induction h with
  | start => exact ⟨0, [], rfl, nofun, fun _ => rfl⟩
  | @climbed stack notRooted below ups ih =>
    refine ⟨stack.length + 1, [], ?_, nofun, fun isRooted => absurd (notRooted.symm.trans isRooted) nofun⟩
    rw [List.eq_replicate_of_mem ups, List.length_replicate, ← List.replicate_succ, List.reverse_replicate,
      List.append_nil]
  | @entered name stack isName below ih =>
    obtain ⟨above, names, same, all, root⟩ := ih
    refine ⟨above, names ++ [name], ?_, ?_, root⟩
    · rw [List.reverse_cons, same, List.append_assoc]
    · intro other mem
      rcases List.mem_append.mp mem with mem | mem
      · exact all other mem
      · rwa [List.mem_singleton.mp mem]

/-- What has these parts is a normal form. -/
theorem of_parts {above : Nat} {names : List (List Char)} (all : ∀ name ∈ names, IsName name)
    (root : rooted = true → above = 0) : Cancelled rooted (List.replicate above up ++ names).reverse := by
  induction names using List.reverseRecOn with
  | nil =>
    rw [List.append_nil, List.reverse_replicate]
    induction above with
    | zero => exact .start
    | succ above ih =>
      have notRooted : rooted = false := Bool.eq_false_iff.mpr fun isRooted => nomatch root isRooted
      refine .climbed notRooted (ih fun isRooted => nomatch notRooted.symm.trans isRooted) ?_
      intro segment mem
      exact List.eq_of_mem_replicate mem
  | append_singleton names last ih =>
    rw [← List.append_assoc, List.reverse_concat]
    exact .entered (all last (List.mem_append_right _ List.mem_cons_self))
      (ih fun name mem => all name (List.mem_append_left _ mem))

end Cancelled

/-- **The normal form of a row does what the row does**, from every stack. -/
theorem walk_cancelled (rooted : Bool) (stack row : List (List Char)) :
    walk rooted stack (walk false [] row).reverse = walk rooted stack row := by
  -- from the end of the row, since the last segment meets what the others have left
  induction row using List.reverseRecOn with
  | nil => rfl
  | append_singleton row segment ih =>
    have normal : Cancelled false (walk false [] row) := Cancelled.start.walk row
    rw [walk_concat, walk_concat, ← ih]
    rcases segment_cases segment with nowhere | rfl | name
    · rw [push_nowhere _ _ nowhere, push_nowhere _ _ nowhere]
    · cases same : walk false [] row with
      | nil => rfl
      | cons top rest =>
        rw [same] at normal
        cases normal with
        | climbed _ _ ups =>
          rw [push_up _ (List.forall_mem_cons.mpr ⟨rfl, ups⟩), List.reverse_cons, walk_concat]
        | entered name below =>
          -- both rows end below the name
          rw [push_up_name _ _ name, List.reverse_cons, walk_concat, push_name _ _ name, push_up_name _ _ name]
    · rw [push_name _ _ name, List.reverse_cons, walk_concat]

/-! ## The form and its segments -/

variable {path : List Char}

/-- What is left of a path has its double dots in front, if it has any. -/
theorem cancelled_segments (path : List Char) : Cancelled (isRooted path) (segments path).reverse := by
  rw [segments_eq, List.reverse_reverse]
  exact Cancelled.start.walk _

/-- Every segment was there before. -/
theorem mem_segments {segment : List Char} (h : segment ∈ segments path) : segment ∈ splitOn '/' path :=
  (mem_walk (List.mem_reverse.mp h)).resolve_left nofun

/-- No segment is empty, and none is `.`. -/
theorem somewhere_of_mem_segments {segment : List Char} (h : segment ∈ segments path) :
    segment ≠ [] ∧ segment ≠ ['.'] := by
  obtain ⟨above, names, same, all, -⟩ := (cancelled_segments path).parts
  rw [List.reverse_reverse] at same
  rw [same] at h
  rcases List.mem_append.mp h with mem | mem
  · rw [List.eq_of_mem_replicate mem]
    decide
  · exact ⟨(all segment mem).1, (all segment mem).2.1⟩

/-- A path that starts at the root has an empty segment first. -/
theorem splitOn_slash (rest : List Char) : splitOn '/' ('/' :: rest) = [] :: splitOn '/' rest := if_pos rfl

/-- The segments are those of the joined text. -/
theorem splitOn_segments (h : segments path ≠ []) : splitOn '/' (joinWith '/' (segments path)) = segments path :=
  splitOn_joinWith h fun _ mem => not_mem_splitOn (mem_segments mem)

/-- Unless there are none, the joined text starts with a character of the first. -/
theorem exists_joined (some : segments path ≠ []) : ∃ c rest, joinWith '/' (segments path) = c :: rest ∧ c ≠ '/' := by
  have split := splitOn_segments some
  have noEmpty : [] ∉ segments path := fun mem => (somewhere_of_mem_segments mem).1 rfl
  cases joined : joinWith '/' (segments path) with
  | nil =>
    rw [joined] at split
    exact absurd (split ▸ List.mem_cons_self) noEmpty
  | cons c rest =>
    refine ⟨c, rest, rfl, ?_⟩
    rintro rfl
    rw [joined, splitOn_slash] at split
    exact absurd (split ▸ List.mem_cons_self) noEmpty

/-- **The three forms.** -/
theorem clean_forms (path : List Char) :
    (isRooted path = true ∧ clean path = '/' :: joinWith '/' (segments path)) ∨
      (isRooted path = false ∧ segments path = [] ∧ clean path = ['.']) ∨
      (isRooted path = false ∧ segments path ≠ [] ∧ clean path = joinWith '/' (segments path)) := by
  cases rooted : isRooted path with
  | true => exact .inl ⟨rfl, if_pos rooted⟩
  | false =>
    have notRooted : ¬isRooted path = true := Bool.eq_false_iff.mp rooted
    by_cases none : segments path = []
    · refine .inr (.inl ⟨rfl, none, (if_neg notRooted).trans (if_pos ?_)⟩)
      rw [none]
      rfl
    · obtain ⟨c, rest, joined, -⟩ := exists_joined none
      refine .inr (.inr ⟨rfl, none, (if_neg notRooted).trans (if_neg ?_)⟩)
      rw [joined]
      nofun

/-- Nothing else counts for the form. -/
theorem clean_congr {other : List Char} (rooted : isRooted path = isRooted other)
    (same : segments path = segments other) : clean path = clean other := by
  rw [clean, clean, rooted, same]

/-- **The form starts at the root if the path does.** -/
theorem isRooted_clean (path : List Char) : isRooted (clean path) = isRooted path := by
  rcases clean_forms path with ⟨rooted, form⟩ | ⟨rooted, none, form⟩ | ⟨rooted, some, form⟩
  · rw [form, rooted]
    rfl
  · rw [form, rooted]
    rfl
  · obtain ⟨c, rest, joined, noSlash⟩ := exists_joined some
    rw [form, rooted, joined]
    simpa [isRooted] using noSlash

/-- Even the empty path is cleaned to something. -/
theorem clean_ne_nil (path : List Char) : clean path ≠ [] := by
  rcases clean_forms path with ⟨-, form⟩ | ⟨-, -, form⟩ | ⟨-, some, form⟩
  · rw [form]
    nofun
  · rw [form]
    nofun
  · obtain ⟨c, rest, joined, -⟩ := exists_joined some
    rw [form, joined]
    nofun

/-- **To walk along the form is to walk along its segments**: its other pieces lead nowhere. -/
theorem walk_clean (rooted : Bool) (stack : List (List Char)) (path : List Char) :
    walk rooted stack (splitOn '/' (clean path)) = walk rooted stack (segments path) := by
  rcases clean_forms path with ⟨-, form⟩ | ⟨-, none, form⟩ | ⟨-, some, form⟩
  · rw [form, splitOn_slash, walk_nowhere _ _ _ (.inl rfl)]
    by_cases none : segments path = []
    · rw [none]
      exact walk_nowhere rooted stack [] (.inl rfl)
    · rw [splitOn_segments none]
  · rw [form, none]
    exact walk_nowhere rooted stack [] (.inr rfl)
  · rw [form, splitOn_segments some]

/-- **A clean path has the segments of the path it was made from.** -/
theorem segments_clean (path : List Char) : segments (clean path) = segments path := by
  rw [segments_eq (clean path), isRooted_clean, walk_clean]
  have again := (cancelled_segments path).walk_reverse
  rw [List.reverse_reverse] at again
  rw [again, List.reverse_reverse]

/-- **Cleaning a second time changes nothing.** -/
theorem clean_clean (path : List Char) : clean (clean path) = clean path :=
  clean_congr (isRooted_clean path) (segments_clean path)

/-! ## Joined paths -/

section Join

variable {before : List Char} (after : List Char)

/-- Whether a path is rooted is seen at its start. -/
theorem isRooted_append (h : before ≠ []) : isRooted (before ++ after) = isRooted before := by
  cases before with
  | nil => exact absurd rfl h
  | cons c rest => rfl

/-- The segments of a path that is continued, by way of the first part. -/
theorem segments_append : segments (before ++ '/' :: after) =
    (walk (isRooted (before ++ '/' :: after))
      (walk (isRooted (before ++ '/' :: after)) [] (splitOn '/' before)) (splitOn '/' after)).reverse := by
  rw [segments_eq, splitOn_append_separator, walk_append]

/-- **The first part may be cleaned first.** -/
theorem clean_append_left (h : before ≠ []) : clean (clean before ++ '/' :: after) = clean (before ++ '/' :: after) := by
  have rooted : isRooted (clean before ++ '/' :: after) = isRooted (before ++ '/' :: after) := by
    rw [isRooted_append _ (clean_ne_nil before), isRooted_append _ h, isRooted_clean]
  have built : walk (isRooted before) [] (splitOn '/' (clean before)) = walk (isRooted before) [] (splitOn '/' before) := by
    rw [walk_clean, segments_eq, (Cancelled.start.walk _).walk_reverse]
  refine clean_congr rooted ?_
  rw [segments_append, segments_append, rooted, isRooted_append _ h, built]

/-- **So may the second part**, unless it starts at the root. -/
theorem clean_append_right (before : List Char) (h : isRooted after = false) :
    clean (before ++ '/' :: clean after) = clean (before ++ '/' :: after) := by
  have rooted : isRooted (before ++ '/' :: clean after) = isRooted (before ++ '/' :: after) := by
    cases before <;> rfl
  -- the second part is walked from what the first has left, which can be any stack
  have same (rooted : Bool) (stack : List (List Char)) :
      walk rooted stack (splitOn '/' (clean after)) = walk rooted stack (splitOn '/' after) := by
    rw [walk_clean, segments_eq, h, walk_cancelled]
  refine clean_congr rooted ?_
  rw [segments_append, segments_append, rooted, same]

end Join

/-! ## Canonical paths -/

/-- The path without the slash it starts with at the root. -/
def body (path : List Char) : List Char := if isRooted path then path.tail else path

/-- **A path in canonical form.**  No segment is empty or `.`, apart from the empty one before a leading slash, and
apart from the paths `.` and `/`; the segments that go up come first, and at the root there are none. -/
structure Canonical (path : List Char) : Prop where
  somewhere : path ≠ ['.'] → path ≠ ['/'] → ∀ segment ∈ splitOn '/' (body path), segment ≠ [] ∧ segment ≠ ['.']
  upsFirst : ∃ above others, splitOn '/' path = List.replicate above up ++ others ∧ up ∉ others
  atRoot : isRooted path = true → up ∉ splitOn '/' path

/-- **The form is canonical.** -/
theorem canonical_clean (path : List Char) : Canonical (clean path) := by
  obtain ⟨above, names, same, all, root⟩ := (cancelled_segments path).parts
  rw [List.reverse_reverse] at same
  have noUp : up ∉ names := fun mem => (all up mem).2.2 rfl
  have relative (h : isRooted path = false) : isRooted (clean path) = true → up ∉ splitOn '/' (clean path) :=
    fun rooted => nomatch h.symm.trans ((isRooted_clean path).symm.trans rooted)
  rcases clean_forms path with ⟨rooted, form⟩ | ⟨rooted, none, form⟩ | ⟨rooted, some, form⟩
  · have pieces : up ∉ splitOn '/' (clean path) := by
      rw [form, splitOn_slash]
      by_cases none : segments path = []
      · rw [none]
        decide
      · rw [splitOn_segments none, same, root rooted]
        exact fun mem => (List.mem_cons.mp mem).elim nofun noUp
    refine ⟨fun _ notRoot => ?_, ⟨0, _, rfl, pieces⟩, fun _ => pieces⟩
    have some : segments path ≠ [] := by
      intro none
      rw [form, none] at notRoot
      exact notRoot rfl
    have inside : body (clean path) = joinWith '/' (segments path) := by
      rw [body, isRooted_clean, rooted, if_pos rfl, form]
      rfl
    rw [inside, splitOn_segments some]
    exact fun segment => somewhere_of_mem_segments
  · refine ⟨fun notDot => absurd form notDot, ⟨0, _, rfl, ?_⟩, relative rooted⟩
    rw [form]
    decide
  · have pieces : splitOn '/' (clean path) = segments path := by rw [form, splitOn_segments some]
    have notRooted : ¬isRooted (clean path) = true := Bool.eq_false_iff.mp ((isRooted_clean path).trans rooted)
    refine ⟨fun _ _ => ?_, ⟨above, names, pieces.trans same, noUp⟩, relative rooted⟩
    rw [body, if_neg notRooted, pieces]
    exact fun segment => somewhere_of_mem_segments

/-- A row of steps up and names is what walking along it leaves. -/
theorem walk_of_parts (rooted : Bool) (above : Nat) {others : List (List Char)}
    (somewhere : ∀ segment ∈ others, segment ≠ [] ∧ segment ≠ ['.']) (noUp : up ∉ others)
    (root : rooted = true → above = 0) :
    (walk rooted [] (List.replicate above up ++ others)).reverse = List.replicate above up ++ others := by
  have all : ∀ name ∈ others, IsName name := by
    intro name mem
    exact ⟨(somewhere name mem).1, (somewhere name mem).2, fun same => noUp (same ▸ mem)⟩
  have normal : Cancelled rooted (List.replicate above up ++ others).reverse := .of_parts all root
  have again := normal.walk_reverse
  rw [List.reverse_reverse] at again
  rw [again, List.reverse_reverse]

/-- **A canonical path is its own form.** -/
theorem Canonical.clean_eq (h : Canonical path) : clean path = path := by
  by_cases dot : path = ['.']
  · rw [dot]
    rfl
  by_cases slash : path = ['/']
  · rw [slash]
    rfl
  have somewhere := h.somewhere dot slash
  cases rooted : isRooted path with
  | true =>
    obtain ⟨rest, rfl⟩ : ∃ rest, path = '/' :: rest := List.head?_eq_some_iff.mp (beq_iff_eq.mp rooted)
    have noUp := h.atRoot rooted
    rw [splitOn_slash] at noUp
    have pieces : segments ('/' :: rest) = splitOn '/' rest := by
      rw [segments_eq, rooted, splitOn_slash, walk_nowhere _ _ _ (.inl rfl)]
      exact walk_of_parts true 0 somewhere (fun mem => noUp (List.mem_cons_of_mem _ mem)) fun _ => rfl
    rw [clean, if_pos rooted, pieces, joinWith_splitOn]
  | false =>
    obtain ⟨above, others, split, noUp⟩ := h.upsFirst
    have notRooted : ¬isRooted path = true := Bool.eq_false_iff.mp rooted
    rw [body, if_neg notRooted, split] at somewhere
    have pieces : segments path = splitOn '/' path := by
      rw [segments_eq, rooted, split]
      refine walk_of_parts false above (fun segment mem => somewhere segment (List.mem_append_right _ mem)) noUp ?_
      exact fun rooted => absurd rooted Bool.false_ne_true
    have some : path ≠ [] := by
      rintro rfl
      exact (somewhere [] (split ▸ List.mem_cons_self)).1 rfl
    rw [clean, if_neg notRooted, pieces, joinWith_splitOn]
    exact if_neg some

/-! ## Chains of imports -/

/-- The last segment of a path within the library, unless this is the library itself, is a name. -/
theorem Confined.isName_last {key last : List Char} (h : Confined key) (notDot : key ≠ ['.'])
    (mem : last ∈ splitOn '/' key) : IsName last :=
  ⟨(h.segments last mem).1, fun dot => notDot (h.dot last mem dot), (h.segments last mem).2⟩

/-- **The directory of a module is one step up** from the module, and an import relative to it goes on from there. -/
theorem clean_directory {key : List Char} (h : Confined key) (notDot : key ≠ ['.']) (target : List Char) :
    clean (directory key ++ '/' :: target) = clean (key ++ '/' :: (up ++ '/' :: target)) := by
  have there (rooted : Bool) (stack : List (List Char)) {last : List Char} (name : IsName last) :
      walk rooted stack (last :: up :: splitOn '/' target) = walk rooted stack (splitOn '/' target) := by
    show walk rooted (push rooted (push rooted stack last) up) _ = _
    rw [push_name _ _ name, push_up_name _ _ name]
  have onward : splitOn '/' (up ++ '/' :: target) = up :: splitOn '/' target := rfl
  cases cut : splitAtLast '/' key with
  | none =>
    -- the module is in the library itself
    have whole : splitOn '/' key = [key] := splitOn_of_not_mem (splitAtLast_eq_none cut)
    have name : IsName key := h.isName_last notDot (whole ▸ List.mem_cons_self)
    have rooted : isRooted (key ++ '/' :: (up ++ '/' :: target)) = false := by
      rw [isRooted_append _ h.nonempty]
      simpa [isRooted] using h.relative
    have here : directory key = ['.'] := by rw [directory, cut]
    rw [here]
    refine clean_congr rooted.symm ?_
    rw [segments_eq, segments_eq, rooted, splitOn_append_separator '/' key, whole, onward]
    show (walk false [] (['.'] :: splitOn '/' target)).reverse = (walk false [] (key :: up :: splitOn '/' target)).reverse
    rw [walk_nowhere _ _ _ (.inr rfl), there _ _ name]
  | some parts =>
    obtain ⟨dir, last⟩ := parts
    obtain ⟨rfl, noSlash⟩ := splitAtLast_eq_some cut
    have split : splitOn '/' (dir ++ '/' :: last) = splitOn '/' dir ++ [last] := by
      rw [splitOn_append_separator, splitOn_of_not_mem noSlash]
    have name : IsName last := h.isName_last notDot (split ▸ List.mem_append_right _ List.mem_cons_self)
    have some : dir ≠ [] := by
      rintro rfl
      exact h.relative rfl
    have here : directory (dir ++ '/' :: last) = dir := by rw [directory, cut]
    have rooted (more : List Char) : isRooted (dir ++ '/' :: last ++ more) = isRooted (dir ++ '/' :: target) := by
      rw [List.append_assoc, isRooted_append _ some, isRooted_append _ some]
    rw [here]
    refine clean_congr (rooted _).symm ?_
    rw [segments_eq, segments_eq, rooted, splitOn_append_separator '/' dir, splitOn_append_separator '/' (dir ++ _), split,
      onward, List.append_assoc, walk_append, walk_append]
    exact congrArg List.reverse (there _ _ name).symm

/-- What a module means by a relative target, written out from a path that names the module: one step up, and on.
A module whose path is `.` is in the library itself. -/
def onward (written target : List Char) : List Char :=
  if clean written = ['.'] then '.' :: '/' :: target else written ++ '/' :: (up ++ '/' :: target)

/-- It is what the key of the module leads to. -/
theorem clean_onward {written : List Char} (h : Confined (clean written)) (target : List Char) :
    clean (directory (clean written) ++ '/' :: target) = clean (onward written target) := by
  by_cases dot : clean written = ['.']
  · rw [onward, if_pos dot, dot]
    rfl
  · have some : written ≠ [] := by
      rintro rfl
      exact dot rfl
    rw [onward, if_neg dot, clean_directory h dot, clean_append_left _ some]

end ModulePath

/-! ## Imports along a chain -/

open ModulePath

/-- The source of a module is named by its path. -/
theorem Library.findSource_named {l : Library} {files : FileTree} {path : String} {source : Source}
    (h : l.findSource files path = .ok source) : source.isModule = true ∧ source.name = path := by
  have bundled (found : l.bundledSource? path = some source) : source.isModule = true ∧ source.name = path := by
    obtain ⟨code, -, rfl⟩ := Option.map_eq_some_iff.mp found
    exact ⟨rfl, rfl⟩
  unfold findSource at h
  split at h
  · split at h
    · next found =>
      cases h
      exact bundled found
    · exact nomatch h
  · dsimp only at h
    split at h
    · cases h
      exact ⟨rfl, rfl⟩
    · split at h
      · next found =>
        cases h
        exact bundled found
      · exact nomatch h
    · exact nomatch h

/-- **A chain of imports ends at a key.**  It starts with an import by any source.  The source of the module that is
reached then imports by a relative target, and so on.  Along with the key goes a path that is written out: the
targets one after the other, with a step up from each module to its directory. -/
inductive ModulePath.Reached : List Char → String → Prop
  | start {source : Source} {target key : String} : resolvePath source target = .ok key →
      Reached (joinedPath source target) key
  | onward {written : List Char} {key target next : String} {library : Library} {files : FileTree} {source : Source} :
      Reached written key → library.findSource files key = .ok source → isRelative target.toList = true →
      resolvePath source target = .ok next → Reached (onward written target.toList) next

variable {source : Source} {target key : String}

/-- What a target resolves to is the form of the joined path, which is within the library. -/
theorem resolvePath_ok (h : resolvePath source target = .ok key) :
    key.toList = clean (joinedPath source target) ∧ Confined key.toList := by
  have allowed : isRelative target.toList = true → source.isModule = true := by
    intro relative
    cases isModule : source.isModule with
    | true => rfl
    | false => exact nomatch (resolvePath_relative relative isModule).symm.trans h
  rw [resolvePath_eq allowed] at h
  split at h
  · exact nomatch h
  · next inside =>
    cases h
    rw [String.toList_ofList]
    exact ⟨rfl, confined_of_not_escapes (Bool.eq_false_iff.mpr inside)⟩

/-- **The key at the end of a chain** is the form of the path written out along it. -/
theorem ModulePath.Reached.key_eq {written : List Char} (h : Reached written key) :
    key.toList = clean written ∧ Confined key.toList := by
  induction h with
  | start resolved => exact resolvePath_ok resolved
  | @onward written key target next library files source before found relative resolved ih =>
    obtain ⟨named, confined⟩ := ih
    obtain ⟨same, inside⟩ := resolvePath_ok resolved
    refine ⟨?_, inside⟩
    rw [same, joinedPath, if_pos relative, (Library.findSource_named found).2, named]
    rw [named] at confined
    exact clean_onward confined target.toList

/-- A path within the library is not relative to a module. -/
theorem ModulePath.Confined.not_relative {path : List Char} (h : Confined path) : isRelative path = false := by
  refine Bool.eq_false_iff.mpr fun relative => ?_
  rcases (Bool.or_eq_true _ _).mp relative with here | above
  · obtain ⟨rest, rfl⟩ := List.isPrefixOf_iff_prefix.mp here
    exact nomatch h.dot ['.'] List.mem_cons_self rfl
  · obtain ⟨rest, rfl⟩ := List.isPrefixOf_iff_prefix.mp above
    exact (h.segments up List.mem_cons_self).2 rfl

/-- **A path that is not relative resolves to its form**, whoever imports it, if this is within the library. -/
theorem resolvePath_of_confined (source : Source) {path : String} (notRelative : isRelative path.toList = false)
    (h : Confined (clean path.toList)) : resolvePath source path = .ok (cleanPath path) := by
  have direct : joinedPath source path = path.toList := if_neg (Bool.eq_false_iff.mp notRelative)
  have allowed : isRelative path.toList = true → source.isModule = true := fun relative =>
    nomatch notRelative.symm.trans relative
  rw [resolvePath_eq allowed, direct, h.not_escapes]
  rfl

/-- A key names its module, whoever imports it. -/
theorem resolvePath_key (source : Source) (h : Confined key.toList) (canonical : clean key.toList = key.toList) :
    resolvePath source key = .ok key := by
  have same : cleanPath key = key := by rw [cleanPath, canonical, String.ofList_toList]
  have resolved := resolvePath_of_confined source h.not_relative (canonical.symm ▸ h)
  rwa [same] at resolved

/-- Paths are joined by a slash. -/
theorem toList_join (before after : String) :
    (before ++ "/" ++ after).toList = before.toList ++ '/' :: after.toList := by
  rw [String.toList_append, String.toList_append, List.append_assoc]
  rfl

theorem toList_cleanPath (path : String) : (cleanPath path).toList = clean path.toList := String.toList_ofList

/-- **The cleaned path is a canonical form.**  It is its own cleaned path, it starts at the root if the path does, and
no other path is its own: the canonical ones are those without empty segments and `.` in which steps up come first,
and at the root not at all.  Of a joined path the first part may be cleaned first, and so may the second, unless it
starts at the root.  And a chain of imports, each relative to the module before, ends at the key of the path that is
written out along the chain: whoever names this module directly, by its key or by any path with the same cleaned
path, gets the same key. -/
theorem cleanPath_canonical :
    (∀ path : String, cleanPath (cleanPath path) = cleanPath path ∧
      isRooted (cleanPath path).toList = isRooted path.toList ∧ Canonical (cleanPath path).toList ∧
      (cleanPath path = path ↔ Canonical path.toList)) ∧
    (∀ before after : String, before ≠ "" →
      cleanPath (before ++ "/" ++ after) = cleanPath (cleanPath before ++ "/" ++ after) ∧
      (isRooted after.toList = false →
        cleanPath (before ++ "/" ++ after) = cleanPath (before ++ "/" ++ cleanPath after))) ∧
    (∀ (written : List Char) (key : String), Reached written key →
      key = cleanPath (String.ofList written) ∧
      ∀ (source : Source) (direct : String),
        direct = key ∨ isRelative direct.toList = false ∧ cleanPath direct = cleanPath (String.ofList written) →
        resolvePath source direct = .ok key) := by
  refine ⟨fun path => ⟨?_, ?_, ?_, ?_⟩, fun before after nonempty => ⟨?_, fun relative => ?_⟩,
    fun written key reached => ?_⟩
  · rw [cleanPath, toList_cleanPath, clean_clean]
    rfl
  · rw [toList_cleanPath, isRooted_clean]
  · rw [toList_cleanPath]
    exact canonical_clean path.toList
  · constructor
    · intro same
      rw [← same, toList_cleanPath]
      exact canonical_clean path.toList
    · intro canonical
      rw [cleanPath, canonical.clean_eq, String.ofList_toList]
  · have some : before.toList ≠ [] := fun none => nonempty (String.toList_eq_nil_iff.mp none)
    rw [cleanPath, cleanPath, toList_join, toList_join, toList_cleanPath, clean_append_left _ some]
  · rw [cleanPath, cleanPath, toList_join, toList_join, toList_cleanPath, clean_append_right _ _ relative]
  · obtain ⟨same, confined⟩ := reached.key_eq
    have key_eq : key = cleanPath (String.ofList written) := by
      rw [cleanPath, String.toList_ofList, ← same, String.ofList_toList]
    refine ⟨key_eq, ?_⟩
    rintro source direct (rfl | ⟨notRelative, alike⟩)
    · exact resolvePath_key source confined (by rw [same, clean_clean])
    · rw [key_eq, ← alike]
      refine resolvePath_of_confined source notRelative ?_
      rw [← toList_cleanPath, alike, ← key_eq]
      exact confined

/-- The module `a/b` imports `../c`, which is `c`, as is `x/.././c`. -/
theorem cleanPath_canonical_along_chain :
    "a/./b" ≠ "" ∧ isRooted "../c/d/..".toList = false ∧
      cleanPath ("a/./b" ++ "/" ++ "../c/d/..") = cleanPath (cleanPath "a/./b" ++ "/" ++ "../c/d/..") ∧
      cleanPath ("a/./b" ++ "/" ++ "../c/d/..") = cleanPath ("a/./b" ++ "/" ++ cleanPath "../c/d/..") ∧
      Reached "a/b/../../c".toList "c" ∧ isRelative "x/.././c".toList = false ∧
      cleanPath "x/.././c" = cleanPath (String.ofList "a/b/../../c".toList) ∧
      resolvePath (.interactive "") "x/.././c" = .ok "c" := by
  let library : Library := ⟨none, [("a/b", "use ../c")]⟩
  let source : Source := .module "a/b" Library.bundledPath "use ../c"
  have named : resolvePath (.interactive "") "a/b" = .ok "a/b" := by cbv
  have found : library.findSource default "a/b" = .ok source := rfl
  have relative : isRelative "../c".toList = true := by cbv
  have imported : resolvePath source "../c" = .ok "c" := by cbv
  have chain : Reached "a/b/../../c".toList "c" := .onward (.start named) found relative imported
  have nonempty : "a/./b" ≠ "" := by decide
  have alike : cleanPath "x/.././c" = cleanPath (String.ofList "a/b/../../c".toList) := by cbv
  have notRelative : isRelative "x/.././c".toList = false := by cbv
  have joined := cleanPath_canonical.2.1 "a/./b" "../c/d/.." nonempty
  have direct := (cleanPath_canonical.2.2 _ _ chain).2 (.interactive "") "x/.././c" (.inr ⟨notRelative, alike⟩)
  exact ⟨nonempty, by decide, joined.1, joined.2 (by decide), chain, notRelative, alike, direct⟩

end ValueShell
