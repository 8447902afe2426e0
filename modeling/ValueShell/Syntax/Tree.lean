/-
  The syntax tree of the shell language.

      chunk      = { pipeline (newline | ';') }
      pipeline   = form { '|' form }
      form       = assignment { assignment }         compact: a=b c[k]=d
                 | indexing '=' { compound }         spaced:  a = b c
                 | compound { compound }             command: head and arguments
      compound   = indexing { indexing }             written without a space: concatenation
      indexing   = primary { '[' { compound } ']' }

  Every node records the span it was read from.  Errors are reported against these spans, so they
  are exact: a node covers its own text and nothing else.
-/
import ValueShell.Text.Span

namespace ValueShell

/-- A parameter of a lambda as written; the last one may start with `@`. -/
structure Param where
  name : String
  span : Span
deriving DecidableEq, Repr, Inhabited

mutual

/-- A sequence of pipelines: a whole unit, or the body of a lambda or of an output capture. -/
structure Chunk where
  pipelines : List Pipeline
  span : Span

/-- Forms connected by `|`. -/
structure Pipeline where
  forms : List Form
  span : Span

/-- What a pipeline is made of. -/
inductive Form
  /-- one or more assignments, without a command -/
  | assign (assignments : List Assignment) (span : Span)
  /-- a head and its arguments -/
  | command (head : Compound) (args : List Compound) (span : Span)

/-- `left=right` or `left = right...`. -/
structure Assignment where
  left : Indexing
  right : List Compound
  span : Span

/-- Indexings written next to each other. -/
structure Compound where
  indexings : List Indexing
  span : Span

/-- A primary followed by any number of brackets. -/
structure Indexing where
  head : Primary
  brackets : List Bracket
  span : Span

/-- One `[...]` after a primary; the span includes both brackets. -/
structure Bracket where
  items : List Compound
  span : Span

/-- The smallest expressions. -/
inductive Primary
  | bareword (text : String) (span : Span)
  | singleQuoted (text : String) (span : Span)
  /-- the escapes are already replaced -/
  | doubleQuoted (text : String) (span : Span)
  /-- the text after `$`, such as `@xs`, `E:HOME` or `f~` -/
  | reference (text : String) (span : Span)
  /-- `( chunk )` -/
  | capture (chunk : Chunk) (span : Span)
  /-- `[ a b c ]` -/
  | list (items : List Compound) (span : Span)
  /-- `[&k=v &k2=v2]`, or `[&]` for the empty map -/
  | map (pairs : List MapPair) (span : Span)
  /-- `[params]{ body }` or `{ body }` -/
  | lambda (params : List Param) (body : Chunk) (span : Span)
  /-- `{a,b,c}` -/
  | braced (items : List Compound) (span : Span)

/-- `&key=value` inside a map. -/
structure MapPair where
  key : Compound
  value : Compound
  span : Span

end

namespace Primary

/-- The span the primary was read from. -/
def span : Primary → Span
  | bareword _ s | singleQuoted _ s | doubleQuoted _ s | reference _ s | capture _ s | list _ s
  | map _ s | lambda _ _ s | braced _ s => s

/-- The text of a string literal, quoted or not. -/
def literal? : Primary → Option String
  | bareword text _ | singleQuoted text _ | doubleQuoted text _ => some text
  | _ => none

/-- The text of a bareword. -/
def bareword? : Primary → Option String
  | bareword text _ => some text
  | _ => none

end Primary

namespace Form

/-- The span the form was read from. -/
def span : Form → Span
  | assign _ s | command _ _ s => s

end Form

namespace Compound

/-- The primary of a compound that is exactly one primary without brackets. -/
def primary? : Compound → Option Primary
  | ⟨[⟨head, [], _⟩], _⟩ => some head
  | _ => none

/-- The text of a compound that is exactly one string literal. -/
def literal? (c : Compound) : Option String := c.primary?.bind Primary.literal?

/-- The text of a compound that is exactly one bareword. -/
def bareword? (c : Compound) : Option String := c.primary?.bind Primary.bareword?

end Compound

end ValueShell
