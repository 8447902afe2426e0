/-
  Patterns.

  A pattern matches a text as a whole: `?` stands for one character, `*` for any number, and a list in
  brackets for one of its members.  A quoted character stands for itself, and so does one behind a
  backslash.  A bracket that is not closed stands for itself as well.
-/
import ValueShell.Text.Bytes

namespace ValueShell

namespace Script

/-- A member of a list in brackets. -/
inductive Member
  | range (first last : Char)
  | named (name : String)
deriving DecidableEq, Repr, Inhabited

/-- An item of a pattern. -/
inductive PatternItem
  | char (c : Char)
  | any
  | many
  | list (inverted : Bool) (members : List Member)
deriving DecidableEq, Repr, Inhabited

/-- A pattern, item by item. -/
abbrev Pattern := List PatternItem

namespace Member

/-- Whether a character belongs to the class of a name. -/
def inClass (name : String) (c : Char) : Bool :=
  let visible := decide ('!' ≤ c ∧ c ≤ '~')
  match name with
  | "alpha" => c.isAlpha
  | "digit" => c.isDigit
  | "alnum" => c.isAlphanum
  | "upper" => c.isUpper
  | "lower" => c.isLower
  | "space" => c == ' ' || decide ('\t' ≤ c ∧ c ≤ '\r')
  | "blank" => c == ' ' || c == '\t'
  | "punct" => visible && !c.isAlphanum
  | "graph" => visible
  | "print" => visible || c == ' '
  | "cntrl" => decide (c < ' ') || c == '\x7f'
  | "xdigit" => c.isDigit || decide ('a' ≤ c ∧ c ≤ 'f') || decide ('A' ≤ c ∧ c ≤ 'F')
  | _ => false

/-- The names of the classes. -/
def classNames : List String :=
  ["alpha", "digit", "alnum", "upper", "lower", "space", "blank", "punct", "graph", "print", "cntrl",
   "xdigit"]

/-- Whether a character is the member or one of its characters. -/
def has (c : Char) : Member → Bool
  | range first last => decide (first ≤ c) && decide (c ≤ last)
  | named name => inClass name c

end Member

/-- Whether a character matches an item. -/
def PatternItem.fits (c : Char) : PatternItem → Bool
  | char d => c == d
  | any => true
  | many => false
  | list inverted members => members.any (Member.has c) != inverted

namespace Pattern

/-- Whether a text is matched. -/
def matchesText : Pattern → ByteText → Bool
  | [], [] => true
  | [], _ :: _ => false
  | .many :: items, [] => matchesText items []
  | .many :: items, c :: cs => matchesText items (c :: cs) || matchesText (.many :: items) cs
  | _ :: _, [] => false
  | item :: items, c :: cs => item.fits c && matchesText items cs
termination_by items cs => items.length + cs.length

/-- A character, with whether it is quoted. -/
abbrev Marked := List (Char × Bool)

/-- The class `[:name:]` whose opening bracket has been read, and what follows it. -/
def className? (cs : Marked) : Option (String × Marked) :=
  match cs with
  | (':', false) :: rest =>
    let letters := rest.takeWhile fun (c, quoted) => c.isAlpha && !quoted
    match rest.drop letters.length with
    | (':', false) :: (']', false) :: after =>
      let name := String.ofList (letters.map Prod.fst)
      if Member.classNames.contains name then some (name, after) else none
    | _ => none
  | _ => none

/-- A character of a list, with the backslash before it taken off. -/
def listChar? : Marked → Option (Char × Marked)
  | [] => none
  | ('\\', false) :: (c, _) :: rest => some (c, rest)
  | (c, _) :: rest => some (c, rest)

/-- The members up to the closing bracket, and what follows it.  `first` says that none has been read,
when a closing bracket is a member; `turns` bounds how many there are. -/
def members? : Nat → Bool → Marked → Option (List Member × Marked)
  | 0, _, _ => none
  | turns + 1, first, cs =>
    let followed (m : Member) (rest : Marked) : Option (List Member × Marked) :=
      (members? turns false rest).map fun (more, after) => (m :: more, after)
    match cs with
    | (']', false) :: rest => if first then memberFrom turns cs else some ([], rest)
    | ('[', false) :: rest =>
      match className? rest with
      | some (name, after) => followed (.named name) after
      | none => memberFrom turns cs
    | _ => memberFrom turns cs
where
  /-- The members from a character or a range on. -/
  memberFrom : Nat → Marked → Option (List Member × Marked)
    | 0, _ => none
    | turns + 1, cs =>
      (listChar? cs).bind fun (c, rest) =>
        let ranged : Option (Char × Marked) := match rest with
          | ('-', false) :: (']', false) :: _ => none
          | ('-', false) :: more => listChar? more
          | _ => none
        let (last, rest) := ranged.getD (c, rest)
        (members? turns false rest).map fun (more, after) => (.range c last :: more, after)

/-- The list whose opening bracket has been read, and what follows it. -/
def list? (cs : Marked) : Option (PatternItem × Marked) :=
  let (inverted, inside) := match cs with
    | ('!', false) :: rest => (true, rest)
    | rest => (false, rest)
  (members? (2 * inside.length + 2) true inside).map fun (members, rest) => (.list inverted members, rest)

/-- Reads a pattern; `turns` bounds how many items it has. -/
def readItems : Nat → Marked → Pattern
  | 0, _ => []
  | _ + 1, [] => []
  | turns + 1, (c, true) :: rest => .char c :: readItems turns rest
  | turns + 1, ('\\', false) :: (c, _) :: rest => .char c :: readItems turns rest
  | turns + 1, ('?', false) :: rest => .any :: readItems turns rest
  | turns + 1, ('*', false) :: rest => .many :: readItems turns rest
  | turns + 1, ('[', false) :: rest =>
    match list? rest with
    | some (item, after) => item :: readItems turns after
    | none => .char '[' :: readItems turns rest
  | turns + 1, (c, false) :: rest => .char c :: readItems turns rest

/-- Reads a pattern. -/
def read (cs : Marked) : Pattern := readItems cs.length cs

/-! ## Cutting off what matches -/

/-- Where the shortest or longest beginning that matches ends. -/
def firstCut? (p : Pattern) (longest : Bool) (text : ByteText) : Option Nat :=
  let cuts := List.range (text.length + 1)
  (if longest then cuts.reverse else cuts).find? fun n => p.matchesText (text.take n)

/-- Where the shortest or longest end that matches starts. -/
def lastCut? (p : Pattern) (longest : Bool) (text : ByteText) : Option Nat :=
  let cuts := List.range (text.length + 1)
  (if longest then cuts else cuts.reverse).find? fun n => p.matchesText (text.drop n)

/-- The text without the shortest or longest beginning that matches. -/
def dropFirst (p : Pattern) (longest : Bool) (text : ByteText) : ByteText :=
  text.drop ((p.firstCut? longest text).getD 0)

/-- Texts in a row without a beginning that matches, which lies in the first of them.  The longest
beginning of a first text that matches as a whole is all of the texts. -/
def dropFirstOf (p : Pattern) (longest : Bool) : List ByteText → List ByteText
  | [] => []
  | text :: rest =>
    if longest && p.matchesText text then [[]] else p.dropFirst longest text :: rest

/-- Texts in a row up to the last place where the rest of one matches. -/
def dropShortestLastOf? (p : Pattern) : List ByteText → Option (List ByteText)
  | [] => none
  | text :: rest =>
    match dropShortestLastOf? p rest with
    | some kept => some (text :: kept)
    | none => (p.lastCut? false text).map fun n => [text.take n]

/-- Texts in a row without an end that matches.  The longest end is looked for in the first text only,
and takes the others along. -/
def dropLastOf (p : Pattern) (longest : Bool) (texts : List ByteText) : List ByteText :=
  let kept? := match texts with
    | first :: _ =>
      if longest then (p.lastCut? true first).map fun n => [first.take n]
      else p.dropShortestLastOf? texts
    | [] => none
  kept?.getD texts

end Pattern

end Script

end ValueShell
