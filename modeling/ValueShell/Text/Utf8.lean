/-
  Bytes read as text.

  `decodeLossy` reads a byte sequence as UTF-8 and puts U+FFFD in the place of every MAXIMAL INVALID
  PART: the longest stretch that begins a well-formed sequence without finishing it, or one byte if
  it begins none.  `decode?` accepts well-formed input only.  Both read the sequence through
  `nextScalar`, which splits off one character or one invalid part.
-/

namespace ValueShell

namespace Utf8

/-- The bytes a well-formed sequence may have in second place, by its first byte.  The narrowed
ranges rule out overlong forms, surrogates and code points past U+10FFFF. -/
def secondRange (lead : Nat) : Nat × Nat :=
  if lead = 0xe0 then (0xa0, 0xbf)
  else if lead = 0xed then (0x80, 0x9f)
  else if lead = 0xf0 then (0x90, 0xbf)
  else if lead = 0xf4 then (0x80, 0x8f)
  else (0x80, 0xbf)

/-- How many bytes follow the first byte `lead` of a sequence; none if no sequence begins so. -/
def followers? (lead : Nat) : Option Nat :=
  if lead < 0x80 then some 0
  else if 0xc2 ≤ lead ∧ lead ≤ 0xdf then some 1
  else if 0xe0 ≤ lead ∧ lead ≤ 0xef then some 2
  else if 0xf0 ≤ lead ∧ lead ≤ 0xf4 then some 3
  else none

/-- The value bits of a first byte that announces `n` more. -/
def leadBits (lead n : Nat) : Nat :=
  match n with
  | 0 => lead
  | 1 => lead - 0xc0
  | 2 => lead - 0xe0
  | _ => lead - 0xf0

/-- Reads `n` more bytes of a sequence, the first of them within `range`, onto the code point
`acc`.  Answers `none` for the code point if a byte does not fit, and what is left from there. -/
def followed : Nat → Nat × Nat → Nat → List UInt8 → Option Nat × List UInt8
  | 0, _, acc, bytes => (some acc, bytes)
  | _ + 1, _, _, [] => (none, [])
  | n + 1, range, acc, b :: bytes =>
    if range.1 ≤ b.toNat ∧ b.toNat ≤ range.2 then
      followed n (0x80, 0xbf) (acc * 64 + (b.toNat - 0x80)) bytes
    else (none, b :: bytes)

/-- Splits off what starts with `lead`: a character, or `none` for an invalid part. -/
def nextScalar (lead : UInt8) (bytes : List UInt8) : Option Char × List UInt8 :=
  match followers? lead.toNat with
  | none => (none, bytes)
  | some n =>
    match followed n (secondRange lead.toNat) (leadBits lead.toNat n) bytes with
    | (some code, rest) => (some (Char.ofNat code), rest)
    | (none, rest) => (none, rest)

theorem followed_length_le (n : Nat) (range : Nat × Nat) (acc : Nat) (bytes : List UInt8) :
    (followed n range acc bytes).2.length ≤ bytes.length := by
  induction n generalizing range acc bytes with
  | zero => simp [followed]
  | succ n ih =>
    cases bytes with
    | nil => simp [followed]
    | cons b bytes =>
      simp only [followed]
      split
      · exact Nat.le_succ_of_le (ih _ _ _)
      · simp

theorem nextScalar_length_le (lead : UInt8) (bytes : List UInt8) :
    (nextScalar lead bytes).2.length ≤ bytes.length := by
  unfold nextScalar
  split
  · simp
  · next n _ =>
    have h := followed_length_le n (secondRange lead.toNat) (leadBits lead.toNat n) bytes
    split <;> simp_all

/-- Reads bytes as text, with U+FFFD for every maximal invalid part. -/
def decodeLossy : List UInt8 → List Char
  | [] => []
  | b :: bytes =>
    let step := nextScalar b bytes
    step.1.getD '\ufffd' :: decodeLossy step.2
termination_by bytes => bytes.length
decreasing_by
  have := nextScalar_length_le b bytes
  simp only [List.length_cons]
  omega

/-- Reads bytes as text if they are well-formed. -/
def decode? : List UInt8 → Option (List Char)
  | [] => some []
  | b :: bytes =>
    let step := nextScalar b bytes
    match step.1 with
    | none => none
    | some c => (decode? step.2).map (c :: ·)
termination_by bytes => bytes.length
decreasing_by
  have := nextScalar_length_le b bytes
  simp only [List.length_cons]
  omega

/-- The bytes of a text. -/
def encode (cs : List Char) : List UInt8 := cs.flatMap String.utf8EncodeChar

theorem encode_append (cs ds : List Char) : encode (cs ++ ds) = encode cs ++ encode ds := List.flatMap_append

end Utf8

end ValueShell
