/-
  Reading text character by character.

  A `TextReader` walks a `Cursor` over a text: the byte offset reached so far and the characters from
  there on.  There are no tokens, because what a character means depends on where it stands, and
  giving up on an attempt is putting the old cursor back.

  All repetition goes through one loop, `repeated`.  It is bounded by a LIMIT, the number of rounds
  it may take: every round that asks for another one has consumed a character, so a limit above the
  length of the text is never reached.  Reaching it ends the reader with `ReadStop.exhausted`, which
  is told apart from a problem in the text.

  A program keeps its offsets in words, so that they may become too large.  What a reader does then
  depends on `Offsets`: all numbers are good as offsets (`Offsets.unbounded`), or those below a bound
  (`Offsets.below`).  With a bound, the offset that a character would end at beyond it is not reached,
  and this too ends the reader with `exhausted`: in the program the number starts again at `0`, and
  nothing that is read after that is followed here.
-/
import ValueShell.Text.Slice

namespace ValueShell

/-- A place in a text. -/
structure Cursor where
  /-- number of bytes before this place -/
  offset : Nat
  /-- the text from this place on -/
  rest : List Char
deriving DecidableEq, Repr, Inhabited

/-- Why reading stopped without a result. -/
inductive ReadStop (ε : Type)
  | problem (error : ε)
  /-- a limit was reached, of the rounds or of the offsets -/
  | exhausted
deriving DecidableEq, Repr, Inhabited

/-- Which numbers are offsets. -/
class Offsets where
  /-- the first number that is too large for one; none if there is no such number -/
  bound? : Option Nat

namespace Offsets

/-- All numbers. -/
instance unbounded : Offsets := ⟨none⟩

/-- The numbers below a bound. -/
@[reducible] def below (bound : Nat) : Offsets := ⟨some bound⟩

/-- The numbers of 32 bits. -/
@[reducible] def word : Offsets := below UInt32.size

/-- A number as an offset: after the largest comes `0`. -/
def wrap [Offsets] (n : Nat) : Nat :=
  match bound? with
  | none => n
  | some bound => n % bound

end Offsets

/-- A computation that reads from a cursor and moves it, with problems of type `ε`. -/
abbrev TextReader (ε α : Type) := StateT Cursor (Except (ReadStop ε)) α

/-- What one round of a repetition asks for. -/
inductive Round (α : Type)
  /-- no further item -/
  | stop
  /-- one more item, and the repetition is over -/
  | last (item : α)
  /-- one more item, and another round -/
  | more (item : α)

namespace Cursor

/-- The start of a text. -/
def start (text : List Char) : Cursor := ⟨0, text⟩

/-- The place after the next character.  At the end of the text the offset still moves on by one. -/
def next : Cursor → Cursor
  | ⟨offset, []⟩ => ⟨offset + 1, []⟩
  | ⟨offset, c :: cs⟩ => ⟨offset + c.utf8Size, cs⟩

/-- The place after the longest run of characters that satisfy `p`. -/
def dropWhile (p : Char → Bool) (c : Cursor) : Cursor :=
  ⟨c.offset + byteLength (c.rest.takeWhile p), c.rest.dropWhile p⟩

end Cursor

namespace TextReader

variable {ε : Type}

/-- Goes to a cursor, if its offset is below the bound. -/
def reach (bound : Nat) (c : Cursor) : TextReader ε Unit :=
  if c.offset < bound then set c else throw .exhausted

/-- Moves on in the text. -/
def pass [Offsets] (move : Cursor → Cursor) : TextReader ε Unit :=
  match Offsets.bound? with
  | none => modify move
  | some bound => do reach bound (move (← get))

/-- The byte offset of the cursor. -/
def offset : TextReader ε Nat := return (← get).offset

/-- The next character, without moving. -/
def peek? : TextReader ε (Option Char) := return (← get).rest.head?

/-- The character after the next one, without moving. -/
def second? : TextReader ε (Option Char) := return (← get).rest.tail.head?

/-- Moves past the next character. -/
def advance [Offsets] : TextReader ε Unit :=
  match Offsets.bound? with
  | none => modify Cursor.next
  | some bound => do
    let c ← get
    if c.rest.isEmpty then set { c with offset := (c.offset + 1) % bound } else reach bound c.next

/-- Moves past the longest run of characters that satisfy `p`, and answers that run. -/
def munch [Offsets] (p : Char → Bool) : TextReader ε (List Char) := do
  let run := (← get).rest.takeWhile p
  pass (Cursor.dropWhile p)
  return run

/-- Runs an attempt: a problem counts as finding nothing, and then the cursor is back. -/
def attempt {α : Type} (reader : TextReader ε (Option α)) : TextReader ε (Option α) := fun cursor =>
  match reader cursor with
  | .ok (some a, after) => .ok (some a, after)
  | .ok (none, _) => .ok (none, cursor)
  | .error (.problem _) => .ok (none, cursor)
  | .error .exhausted => .error .exhausted

/-- Runs rounds until one does not ask for another, at most `limit` of them. -/
def repeatedOnto {α : Type} (round : TextReader ε (Round α)) :
    Nat → List α → TextReader ε (List α)
  | 0, _ => throw .exhausted
  | limit + 1, items => do
    match ← round with
    | .stop => return items.reverse
    | .last item => return (item :: items).reverse
    | .more item => repeatedOnto round limit (item :: items)

/-- The items of all rounds, in order. -/
def repeated {α : Type} (limit : Nat) (round : TextReader ε (Round α)) : TextReader ε (List α) :=
  repeatedOnto round limit []

end TextReader

end ValueShell
