/-
  Splitting expanded words into fields, and the files that patterns name.

  Only what comes from an expansion outside quotes is split, at the characters of `IFS`.  Those of
  them that are white space separate fields together with their neighbours and are dropped at both
  ends of what is split; any other ends a field by itself, even an empty one.
-/
import ValueShell.Script.Pattern
import ValueShell.Script.State

namespace ValueShell

namespace Script

/-- A text of which some characters are quoted. -/
abbrev Marked := Pattern.Marked

namespace Marked

/-- The text alone. -/
def text (m : Marked) : ByteText := m.map Prod.fst

/-- The text as a pattern. -/
def pattern (m : Marked) : Pattern := Pattern.read m

end Marked

namespace Piece

/-- The characters of an expanded word that is not split. -/
def marked (pieces : List Piece) : Marked :=
  pieces.filterMap fun
    | char c quoted _ => some (c, quoted)
    | _ => none

/-- The text of an expanded word that is not split. -/
def text (pieces : List Piece) : ByteText := (marked pieces).text

/-- Characters from inside quotes. -/
def quotedText (text : ByteText) : List Piece := text.map fun c => .char c true false

/-- Characters from an expansion outside quotes. -/
def softText (text : ByteText) : List Piece := text.map (fun c => .char c false true) ++ [.seam]

end Piece

/-- The state of splitting.  The lists are in reverse. -/
structure Splitter where
  fields : List Marked
  field : Marked
  /-- the field in progress counts even if it is empty -/
  started : Bool
  kept : Bool
  /-- after a separator: whether all that followed the last field was white space -/
  after : Option Bool
deriving Inhabited

namespace Splitter

/-- Ends the field in progress. -/
def endField (s : Splitter) (after : Option Bool) : Splitter :=
  { s with fields := s.field.reverse :: s.fields, field := [], started := false, after }

/-- Takes a separator; `white` says that it is white space. -/
def separator (s : Splitter) (white : Bool) : Splitter :=
  match s.after with
  | some onlyWhite =>
    if white then s else if onlyWhite then { s with after := some false } else s.endField (some false)
  | none => if white && !s.started then s else s.endField (some white)

/-- Takes a piece. -/
def step (ifs : ByteText) (s : Splitter) : Piece → Splitter
  | .char c quoted soft =>
    if soft && (c == '\x00' || ifs.contains c) then
      s.separator (c == ' ' || c == '\t' || c == '\n' || c == '\x00')
    else { s with field := (c, quoted) :: s.field, started := true, after := none }
  | .mark => { s with started := true, after := none }
  | .border => s.endField none
  | .seam => { s with kept := false, after := none }
  | .kept => { s with kept := true }

end Splitter

/-- The fields of an expanded word. -/
def splitFields (ifs : ByteText) (pieces : List Piece) : List Marked :=
  let s := pieces.foldl (Splitter.step ifs) ⟨[], [], false, false, none⟩
  (if s.started || s.kept then s.endField none else s).fields.reverse

/-! ## Files named by patterns -/

/-- Whether a text comes before another one, byte by byte. -/
def bytesBefore (a b : ByteText) : Bool := decide (a < b)

/-- The names in a directory, with the two that every directory has. -/
def namesIn (files : FileTree) (directory : ByteText) : List ByteText :=
  let path := if directory.isEmpty then "." else ByteText.toString directory
  match files.find path with
  | .ok (.directory entries) =>
    ['.'] :: ['.', '.'] :: entries.map fun (name, _) => ByteText.ofString name
  | _ => []

/-- Whether a name is matched; one that begins with a point only by a pattern that does so, too. -/
def nameMatches (component : Marked) (name : ByteText) : Bool :=
  (name.head? != some '.' || (component.head?.map Prod.fst) == some '.') &&
    component.pattern.matchesText name

/-- Whether a component of a path is a pattern. -/
def isOpenComponent (component : Marked) : Bool :=
  component.any fun (c, quoted) => !quoted && (c == '*' || c == '?' || c == '[')

/-- The components of a path. -/
def pathComponents : Marked → List Marked
  | [] => [[]]
  | (c, quoted) :: rest =>
    if c = '/' then [] :: pathComponents rest
    else
      match pathComponents rest with
      | [] => [[(c, quoted)]]
      | component :: more => ((c, quoted) :: component) :: more

/-- The paths that components stand for behind `front`. -/
def matchingPaths (files : FileTree) (front : ByteText) : List Marked → List ByteText
  | [] => []
  | [last] =>
    if isOpenComponent last then
      ((namesIn files front).filter (nameMatches last)).map (front ++ ·)
    else
      let path := front ++ last.text
      match files.find (ByteText.toString path) with
      | .ok _ => [path]
      | .error _ => []
  | component :: rest =>
    if isOpenComponent component then
      ((namesIn files front).filter (nameMatches component)).flatMap fun name =>
        matchingPaths files (front ++ name ++ ['/']) rest
    else matchingPaths files (front ++ component.text ++ ['/']) rest

/-- The paths that a field stands for: those that it matches, or its own text. -/
def namedPaths (files : FileTree) (field : Marked) : List ByteText :=
  if isOpenComponent field then
    match matchingPaths files [] (pathComponents field) with
    | [] => [field.text]
    | found => found.mergeSort fun a b => !bytesBefore b a
  else [field.text]

end Script

end ValueShell
