/-
  Where values and bytes flow.

  Every operation has two outputs: a stream of VALUES and a stream of BYTES.  Each goes either to the
  standard output, where a value is printed on a line of its own, or into memory: values into a
  queue, from which the next stage of a pipeline or a capture takes them, and bytes into a buffer.

  A `Ports` value says where the streams of an operation go and which queue it reads.  The contents are in
  `Streams`, and are referred to by number.  Commands of the system also read standard input and write to
  standard error, which belong to no operation; and what they write, the programs decide that are behind them.
-/
import ValueShell.Text.Lines
import ValueShell.Text.Utf8
import ValueShell.Value.Basic
import ValueShell.World.Command

namespace ValueShell

/-- The name of a queue. -/
structure QueueId where
  index : Nat
deriving DecidableEq, Repr, Inhabited

/-- The name of a buffer. -/
structure BufferId where
  index : Nat
deriving DecidableEq, Repr, Inhabited

/-- Where values go. -/
inductive ValueSink
  | standard
  | queue (queue : QueueId)
deriving DecidableEq, Repr, Inhabited

/-- Where bytes go. -/
inductive ByteSink
  | standard
  | buffer (buffer : BufferId)
deriving DecidableEq, Repr, Inhabited

/-- The input and the outputs of an operation. -/
structure Ports where
  /-- the values the previous stage put out, if there is one -/
  input : Option QueueId
  values : ValueSink
  bytes : ByteSink
deriving DecidableEq, Repr, Inhabited

/-- No input, and both outputs to the standard output. -/
def Ports.standard : Ports := ⟨none, .standard, .standard⟩

/-- A queue of values. -/
structure Queue where
  values : Array Value
  /-- how many of them have been taken -/
  taken : Nat
deriving Inhabited

/-- The contents of all streams. -/
structure Streams where
  queues : Array Queue
  buffers : Array (Array UInt8)
  standard : Array UInt8
  /-- standard error -/
  errors : Array UInt8
  /-- what is left of standard input -/
  input : List UInt8
  /-- the programs that are yet to be started -/
  programs : Programs
deriving Inhabited

/-- What a capture has collected. -/
structure Captured where
  values : List Value
  bytes : List UInt8
deriving Inhabited

namespace Streams

/-- Nothing written so far. -/
def empty : Streams := ⟨#[], #[], #[], #[], [], .posix⟩

/-- A new queue that holds the given values. -/
def newQueue (s : Streams) (values : List Value) : QueueId × Streams :=
  (⟨s.queues.size⟩, { s with queues := s.queues.push ⟨values.toArray, 0⟩ })

/-- A new buffer. -/
def newBuffer (s : Streams) : BufferId × Streams :=
  (⟨s.buffers.size⟩, { s with buffers := s.buffers.push #[] })

/-- Writes bytes. -/
def write (s : Streams) (sink : ByteSink) (bytes : List UInt8) : Streams :=
  match sink with
  | .standard => { s with standard := s.standard ++ bytes.toArray }
  | .buffer b => { s with buffers := s.buffers.modify b.index (· ++ bytes.toArray) }

/-- A program is started: it writes bytes to standard error, and leaves `input` of standard input. -/
def pass (s : Streams) (errors input : List UInt8) : Streams :=
  { s with errors := s.errors ++ errors.toArray, input, programs := s.programs.rest }

/-- The line that a value is printed as. -/
def printedLine (v : Value) : List UInt8 := Utf8.encode ("▶ " ++ v.repr ++ "\n").toList

/-- Puts a value out. -/
def put (s : Streams) (sink : ValueSink) (v : Value) : Streams :=
  match sink with
  | .standard => s.write .standard (printedLine v)
  | .queue q =>
    { s with
      queues := s.queues.modify q.index fun queue => { queue with values := queue.values.push v } }

/-- The values of a queue that have not been taken. -/
def waiting (s : Streams) (q : QueueId) : List Value :=
  match s.queues[q.index]? with
  | some queue => queue.values.toList.drop queue.taken
  | none => []

/-- The next value of a queue. -/
def next? (s : Streams) (q : QueueId) : Option Value :=
  (s.queues[q.index]?).bind fun queue => queue.values[queue.taken]?

/-- Counts the next value of a queue as taken. -/
def skip (s : Streams) (q : QueueId) : Streams :=
  { s with
    queues := s.queues.modify q.index fun queue => { queue with taken := queue.taken + 1 } }

/-- What has been collected in a queue and a buffer. -/
def captured (s : Streams) (q : QueueId) (b : BufferId) : Captured :=
  ⟨s.waiting q, (s.buffers.getD b.index #[]).toList⟩

end Streams

namespace Captured

/-- The byte output as text. -/
def text (c : Captured) : String := String.ofList (Utf8.decodeLossy c.bytes)

/-- Everything as values: first the values, then the lines of the byte output. -/
def all (c : Captured) : List Value :=
  c.values ++ (textLines (Utf8.decodeLossy c.bytes)).map fun line => .text (String.ofList line)

end Captured

end ValueShell
