/-
  Quoting of characters and texts inside messages.

  A quoted character stands between apostrophes, a quoted text between double quotes.  Both write
  `\0 \t \r \n \\` and their own quote with a backslash, and show any character that would not be
  visible by its code point, `\u` and the hexadecimal digits in braces.  A mark that would attach
  itself to the character before it counts as not visible.
-/
import ValueShell.Text.Printable

namespace ValueShell

namespace Quoted

/-- `\u` and the code point of `c` in lower-case hexadecimal, between braces. -/
def codePoint (c : Char) : List Char :=
  ['\\', 'u', '\x7b'] ++ Nat.toDigits 16 c.toNat ++ ['\x7d']

/-- The written form of one character between quotes `quote`. -/
def escape (quote c : Char) : List Char :=
  if c = '\x00' then ['\\', '0']
  else if c = '\t' then ['\\', 't']
  else if c = '\r' then ['\\', 'r']
  else if c = '\n' then ['\\', 'n']
  else if c = '\\' ∨ c = quote then ['\\', c]
  else if extendsGrapheme c || !isPrintable c then codePoint c
  else [c]

end Quoted

/-- `c` between apostrophes. -/
def quotedChar (c : Char) : String :=
  String.ofList (['\''] ++ Quoted.escape '\'' c ++ ['\''])

/-- `s` between double quotes. -/
def quotedText (s : String) : String :=
  String.ofList (['"'] ++ s.toList.flatMap (Quoted.escape '"') ++ ['"'])

end ValueShell
