/-
  Regions of a source text.

  A span is a half-open window `[start, stop)` of BYTE offsets.  Every syntax node, operation and
  error carries one, so the operations here are the few that build new spans out of old ones: a
  point, the cover of two spans, and the same start with another stop.
-/

namespace ValueShell

/-- The bytes of a source from `start` up to, but not including, `stop`. -/
structure Span where
  start : Nat
  stop : Nat
deriving DecidableEq, Repr, Inhabited

namespace Span

/-- The empty span at `offset`, e.g. "right after the head of the command". -/
def point (offset : Nat) : Span := ⟨offset, offset⟩

/-- Whether the span holds no byte because it starts where it stops. -/
def isEmpty (s : Span) : Bool := s.start == s.stop

/-- Number of bytes; none if the span stops before it starts. -/
def length? (s : Span) : Option Nat :=
  if s.start ≤ s.stop then some (s.stop - s.start) else none

/-- Whether `offset` is one of the span's bytes. -/
def contains (s : Span) (offset : Nat) : Bool :=
  decide (s.start ≤ offset) && decide (offset < s.stop)

/-- The least span that covers both. -/
def merge (a b : Span) : Span := ⟨min a.start b.start, max a.stop b.stop⟩

/-- The same start with another stop: cuts an assignment target at one of its brackets. -/
def withStop (s : Span) (stop : Nat) : Span := ⟨s.start, stop⟩

/-- `start..stop`. -/
def text (s : Span) : String := s!"{s.start}..{s.stop}"

end Span

end ValueShell
