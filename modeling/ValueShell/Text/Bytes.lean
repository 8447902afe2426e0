/-
  Texts of bytes.

  Scripts and what they pass around are sequences of bytes, of which most are ASCII.  A `ByteText`
  writes every byte as the character with its number, so that rules about such texts can name the
  characters they look for; a character past U+00FF has no place in it.
-/
import ValueShell.Text.Utf8

namespace ValueShell

/-- Bytes, each written as the character with its number. -/
abbrev ByteText := List Char

namespace ByteText

/-- Bytes as a text. -/
def ofBytes (bytes : List UInt8) : ByteText := bytes.map fun b => Char.ofNat b.toNat

/-- The bytes of a text. -/
def toBytes (text : ByteText) : List UInt8 := text.map fun c => UInt8.ofNat c.toNat

/-- The bytes of a string in UTF-8. -/
def ofString (s : String) : ByteText := ofBytes (Utf8.encode s.toList)

/-- The text read as UTF-8. -/
def toString (text : ByteText) : String := String.ofList (Utf8.decodeLossy (toBytes text))

theorem toNat_ofNat_byte (b : UInt8) : (Char.ofNat b.toNat).toNat = b.toNat := by
  have h : b.toNat < 256 := b.toNat_lt
  have valid : b.toNat.isValidChar := Or.inl (by omega)
  rw [Char.ofNat, dif_pos valid]
  rfl

/-- Nothing is lost on the way from bytes to a text and back. -/
@[simp] theorem toBytes_ofBytes (bytes : List UInt8) : toBytes (ofBytes bytes) = bytes := by
  induction bytes with
  | nil => rfl
  | cons b bytes ih =>
    simp only [ofBytes, toBytes, List.map_cons, List.map_map] at ih ⊢
    rw [ih, toNat_ofNat_byte]
    simp

end ByteText

end ValueShell
