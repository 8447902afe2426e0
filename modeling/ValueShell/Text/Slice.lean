/-
  Cutting text at byte offsets.

  Offsets count the bytes of the UTF-8 form, while the text is a list of characters, so a cut is
  only possible at a CHARACTER BOUNDARY: `dropBytes?` and `takeBytes?` answer `none` when the
  offset falls inside a character or past the end.
-/

namespace ValueShell

/-- Number of bytes of the text in UTF-8. -/
def byteLength : List Char → Nat
  | [] => 0
  | c :: cs => c.utf8Size + byteLength cs

/-- The text after its first `n` bytes, if they end at a character boundary. -/
def dropBytes? : Nat → List Char → Option (List Char)
  | 0, cs => some cs
  | _ + 1, [] => none
  | n + 1, c :: cs => if c.utf8Size ≤ n + 1 then dropBytes? (n + 1 - c.utf8Size) cs else none

/-- The first `n` bytes of the text, if they end at a character boundary. -/
def takeBytes? : Nat → List Char → Option (List Char)
  | 0, _ => some []
  | _ + 1, [] => none
  | n + 1, c :: cs =>
    if c.utf8Size ≤ n + 1 then (takeBytes? (n + 1 - c.utf8Size) cs).map (c :: ·) else none

/-- The bytes from `start` up to `stop`, if both are character boundaries of the text. -/
def slice? (cs : List Char) (start stop : Nat) : Option (List Char) :=
  if start ≤ stop then (dropBytes? start cs).bind (takeBytes? (stop - start)) else none

@[simp] theorem byteLength_append (as bs : List Char) :
    byteLength (as ++ bs) = byteLength as + byteLength bs := by
  induction as with
  | nil => simp [byteLength]
  | cons c as ih => simp only [List.cons_append, byteLength, ih]; omega

/-! ## Cuts at the end of a known part -/

theorem dropBytes?_append (before after : List Char) :
    dropBytes? (byteLength before) (before ++ after) = some after := by
  induction before with
  | nil => simp [byteLength, dropBytes?]
  | cons c before ih =>
    obtain ⟨n, hn⟩ : ∃ n, c.utf8Size = n + 1 := ⟨c.utf8Size - 1, by have := c.utf8Size_pos; omega⟩
    have whole : byteLength (c :: before) = (n + byteLength before) + 1 := by
      simp only [byteLength, hn]; omega
    have left : n + byteLength before + 1 - c.utf8Size = byteLength before := by omega
    rw [whole, List.cons_append, dropBytes?, if_pos (by omega), left, ih]

theorem takeBytes?_append (text after : List Char) :
    takeBytes? (byteLength text) (text ++ after) = some text := by
  induction text with
  | nil => simp [byteLength, takeBytes?]
  | cons c text ih =>
    obtain ⟨n, hn⟩ : ∃ n, c.utf8Size = n + 1 := ⟨c.utf8Size - 1, by have := c.utf8Size_pos; omega⟩
    have whole : byteLength (c :: text) = (n + byteLength text) + 1 := by
      simp only [byteLength, hn]; omega
    have left : n + byteLength text + 1 - c.utf8Size = byteLength text := by omega
    rw [whole, List.cons_append, takeBytes?, if_pos (by omega), left, ih]
    rfl

/-- What stands between a part before it and a part after it. -/
theorem slice?_append (before text after : List Char) :
    slice? (before ++ text ++ after) (byteLength before) (byteLength before + byteLength text) =
      some text := by
  have left : byteLength before + byteLength text - byteLength before = byteLength text := by omega
  rw [slice?, if_pos (by omega), List.append_assoc, dropBytes?_append, Option.bind_some, left,
    takeBytes?_append]

/-- A character boundary of the text: the bytes before it are those of whole characters. -/
def IsBoundary (cs : List Char) (n : Nat) : Prop :=
  ∃ before after, cs = before ++ after ∧ n = byteLength before

end ValueShell
