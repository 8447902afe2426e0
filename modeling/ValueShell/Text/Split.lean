/-
  Splitting a text at a separator, and joining it again.

  `splitOn c` cuts at every `c` and keeps empty pieces, so a text with `n` separators has `n + 1`
  pieces, and `joinWith c` of the pieces is the text again.  `splitAtFirst` and `splitAtLast` cut at a
  single separator, and say so if there is none.
-/

namespace ValueShell

/-- The pieces between the separators `c`, empty ones included. -/
def splitOn (c : Char) : List Char → List (List Char)
  | [] => [[]]
  | x :: xs =>
    if x = c then [] :: splitOn c xs
    else
      match splitOn c xs with
      | [] => [[x]]
      | piece :: pieces => (x :: piece) :: pieces

/-- The pieces with `c` between them. -/
def joinWith (c : Char) : List (List Char) → List Char
  | [] => []
  | [piece] => piece
  | piece :: pieces => piece ++ c :: joinWith c pieces

/-- Splits a text at its last `c`, which belongs to neither part. -/
def splitAtLast (c : Char) (cs : List Char) : Option (List Char × List Char) :=
  match cs.reverse.dropWhile (· != c) with
  | [] => none
  | _ :: before => some (before.reverse, (cs.reverse.takeWhile (· != c)).reverse)

/-- Splits a text at its first `c`, which belongs to neither part. -/
def splitAtFirst (c : Char) (cs : List Char) : Option (List Char × List Char) :=
  match cs.dropWhile (· != c) with
  | [] => none
  | _ :: after => some (cs.takeWhile (· != c), after)

theorem splitOn_ne_nil (c : Char) (xs : List Char) : splitOn c xs ≠ [] := by
  induction xs with
  | nil => simp [splitOn]
  | cons x xs ih =>
    unfold splitOn
    split
    · simp
    · split <;> simp

@[simp] theorem joinWith_splitOn (c : Char) (xs : List Char) : joinWith c (splitOn c xs) = xs := by
  induction xs with
  | nil => rfl
  | cons x xs ih =>
    unfold splitOn
    split
    · next h =>
      subst h
      cases hs : splitOn x xs with
      | nil => exact absurd hs (splitOn_ne_nil x xs)
      | cons piece pieces => rw [hs] at ih; simp [joinWith, ih]
    · cases hs : splitOn c xs with
      | nil => exact absurd hs (splitOn_ne_nil c xs)
      | cons piece pieces =>
        rw [hs] at ih
        cases pieces with
        | nil => simpa [joinWith] using ih
        | cons next rest => simpa [joinWith] using ih

/-- The pieces of two texts with a separator between them. -/
theorem splitOn_append_separator (c : Char) (xs ys : List Char) :
    splitOn c (xs ++ c :: ys) = splitOn c xs ++ splitOn c ys := by
  induction xs with
  | nil => exact if_pos rfl
  | cons x xs ih =>
    rw [List.cons_append, splitOn, splitOn, ih]
    by_cases separator : x = c
    · rw [if_pos separator, if_pos separator]
      rfl
    · rw [if_neg separator, if_neg separator]
      cases pieces : splitOn c xs with
      | nil => exact absurd pieces (splitOn_ne_nil c xs)
      | cons piece pieces => rfl

/-- There is one piece more than there are separators. -/
theorem length_splitOn (c : Char) (xs : List Char) : (splitOn c xs).length = 1 + xs.count c := by
  induction xs with
  | nil => rfl
  | cons x xs ih =>
    unfold splitOn
    split
    · next separator =>
      rw [List.length_cons, ih, separator, List.count_cons_self, Nat.add_assoc]
    · next other =>
      rw [List.count_cons_of_ne other, ← ih]
      cases pieces : splitOn c xs with
      | nil => exact absurd pieces (splitOn_ne_nil c xs)
      | cons piece pieces => rfl

/-! ## Pieces without a separator -/

theorem not_mem_splitOn {c : Char} {xs piece : List Char} (h : piece ∈ splitOn c xs) :
    c ∉ piece := by
  induction xs generalizing piece with
  | nil =>
    rw [List.mem_singleton.mp h]
    exact nofun
  | cons x xs ih =>
    unfold splitOn at h
    split at h
    · rcases List.mem_cons.mp h with rfl | h
      · exact nofun
      · exact ih h
    · next hx =>
      cases hs : splitOn c xs with
      | nil => exact absurd hs (splitOn_ne_nil c xs)
      | cons first pieces =>
        rw [hs] at h ih
        rcases List.mem_cons.mp h with rfl | h
        · have hfirst : c ∉ first := ih List.mem_cons_self
          simpa [hfirst] using Ne.symm hx
        · exact ih (List.mem_cons_of_mem _ h)

theorem splitOn_of_not_mem {c : Char} {xs : List Char} (h : c ∉ xs) : splitOn c xs = [xs] := by
  induction xs with
  | nil => rfl
  | cons x xs ih =>
    have hx : x ≠ c := fun heq => h (heq ▸ List.mem_cons_self)
    rw [splitOn, if_neg hx, ih fun hin => h (List.mem_cons_of_mem x hin)]

/-- A piece ends at the first separator. -/
theorem splitOn_append_cons {c : Char} {piece : List Char} (h : c ∉ piece) (rest : List Char) :
    splitOn c (piece ++ c :: rest) = piece :: splitOn c rest := by
  rw [splitOn_append_separator, splitOn_of_not_mem h]
  rfl

/-- Splitting undoes joining. -/
theorem splitOn_joinWith {c : Char} {pieces : List (List Char)} (nonempty : pieces ≠ [])
    (h : ∀ piece ∈ pieces, c ∉ piece) : splitOn c (joinWith c pieces) = pieces := by
  induction pieces with
  | nil => exact absurd rfl nonempty
  | cons piece pieces ih =>
    have hpiece : c ∉ piece := h piece List.mem_cons_self
    cases pieces with
    | nil => exact splitOn_of_not_mem hpiece
    | cons next rest =>
      show splitOn c (piece ++ c :: joinWith c (next :: rest)) = _
      rw [splitOn_append_cons hpiece, ih (by simp) fun p hp => h p (List.mem_cons_of_mem _ hp)]

/-- More text goes to the end of the last piece. -/
theorem joinWith_append (c : Char) (pieces : List (List Char)) (last more : List Char) :
    joinWith c (pieces ++ [last ++ more]) = joinWith c (pieces ++ [last]) ++ more := by
  induction pieces with
  | nil => rfl
  | cons piece pieces ih =>
    -- a piece is joined by a separator because something comes after it
    have step (final : List Char) : joinWith c (piece :: (pieces ++ [final])) =
        piece ++ c :: joinWith c (pieces ++ [final]) := by
      cases pieces <;> rfl
    rw [List.cons_append, List.cons_append, step, step, ih, List.append_assoc, List.cons_append]

/-- What `takeWhile` keeps does not stop it. -/
theorem not_mem_takeWhile_bne (c : Char) (cs : List Char) : c ∉ cs.takeWhile (· != c) := by
  intro hin
  have hall := List.all_eq_true.mp (List.all_takeWhile (p := (· != c)) (l := cs)) c hin
  simp at hall

theorem splitAtLast_eq_none {c : Char} {cs : List Char} (h : splitAtLast c cs = none) : c ∉ cs := by
  unfold splitAtLast at h
  split at h
  · next hd =>
    have whole := List.takeWhile_append_dropWhile (p := (· != c)) (l := cs.reverse)
    rw [hd, List.append_nil] at whole
    rw [← List.mem_reverse, ← whole]
    exact not_mem_takeWhile_bne c _
  · exact nomatch h

theorem splitAtLast_eq_some {c : Char} {cs before after : List Char}
    (h : splitAtLast c cs = some (before, after)) : cs = before ++ c :: after ∧ c ∉ after := by
  unfold splitAtLast at h
  split at h
  · exact nomatch h
  · next d rest hd =>
    obtain ⟨rfl, rfl⟩ := Prod.mk.inj (Option.some.inj h)
    obtain rfl : d = c := by
      have first := List.head_dropWhile_not (· != c) (l := cs.reverse) (by simp [hd])
      simpa [hd] using first
    have whole := List.takeWhile_append_dropWhile (p := (· != d)) (l := cs.reverse)
    rw [hd] at whole
    refine ⟨?_, fun hin => not_mem_takeWhile_bne d _ (List.mem_reverse.mp hin)⟩
    simpa using (congrArg List.reverse whole).symm

end ValueShell
