/-
  What an output capture yields.

  Captured code puts values into a queue and writes bytes to a buffer.  Both are made for the capture, nothing takes
  values out of the queue before the code has ended, and nothing of what the code puts out goes anywhere else
  (`FlowingEvaluation`).  So the capture yields all values, in order, and then the lines of all bytes.

  The lines lose nothing but what ends them.  Each is ended by a newline, or by a carriage return and a newline, and
  the last one need not be ended at all; put behind the lines again, the ends give the text (`Lined`).  There is one
  more end than there should be: a carriage return at the very end of the text, which no newline follows, is dropped
  as well.  The text `a` and the text `a` with such a carriage return have the same lines.
-/
import ValueShell.Proofs.FlowingEvaluation
import ValueShell.Proofs.SessionSafety

namespace ValueShell

open Eval

/-! ## Text and its bytes -/

namespace Utf8

theorem toNat_byte {n : Nat} (small : n < 256) : (UInt8.ofNat n).toNat = n := by
  rw [UInt8.toNat_ofNat']
  exact Nat.mod_eq_of_lt small

/-- A byte in the middle of a sequence carries six bits of the code point. -/
theorem followed_six {n acc v : Nat} {range : Nat × Nat} (bytes : List UInt8)
    (fits : range.1 ≤ v % 64 + 128 ∧ v % 64 + 128 ≤ range.2) :
    followed (n + 1) range acc (UInt8.ofNat (v % 64 + 128) :: bytes) =
      followed n (0x80, 0xbf) (acc * 64 + v % 64) bytes := by
  rw [followed, toNat_byte (by omega), if_pos fits, Nat.add_sub_cancel]

/-- The rest of them have no narrower range. -/
theorem followed_next {n acc v : Nat} (bytes : List UInt8) :
    followed (n + 1) (0x80, 0xbf) acc (UInt8.ofNat (v % 64 + 128) :: bytes) =
      followed n (0x80, 0xbf) (acc * 64 + v % 64) bytes :=
  followed_six bytes ⟨Nat.le_add_left _ _, by dsimp only; omega⟩

/-- The second byte is within its range unless the sequence is overlong, a surrogate, or past the last code point. -/
theorem secondRange_fits {lead v : Nat} (overlong : (lead = 0xe0 → 32 ≤ v % 64) ∧ (lead = 0xf0 → 16 ≤ v % 64))
    (surrogate : lead = 0xed → v % 64 < 32) (high : lead = 0xf4 → v % 64 < 16) :
    (secondRange lead).1 ≤ v % 64 + 128 ∧ v % 64 + 128 ≤ (secondRange lead).2 := by
  unfold secondRange
  split_ifs <;> dsimp only <;> omega

/-- A sequence is a character if its bytes are those that its first byte announces. -/
theorem nextScalar_of_followed {lead : Nat} (n acc : Nat) {c : Char} {bytes rest : List UInt8} (small : lead < 256)
    (announced : followers? lead = some n) (bits : leadBits lead n = acc)
    (code : followed n (secondRange lead) acc bytes = (some c.toNat, rest)) :
    nextScalar (UInt8.ofNat lead) bytes = (some c, rest) := by
  simp only [nextScalar, toNat_byte small, announced, bits, code, Char.ofNat_toNat]

/-- **A character is read back from its bytes**, whatever comes after them. -/
theorem nextScalar_encodeChar (c : Char) (rest : List UInt8) : ∃ lead more,
    String.utf8EncodeChar c = lead :: more ∧ nextScalar lead (more ++ rest) = (some c, rest) := by
  have valid : c.toNat < 0xd800 ∨ 0xdfff < c.toNat ∧ c.toNat < 0x110000 := c.valid
  have code : c.val.toNat = c.toNat := rfl
  rw [String.utf8EncodeChar.eq_1]
  simp only [code]
  generalize hv : c.toNat = v at valid
  have six (n : Nat) : n / 64 * 64 + n % 64 = n := Nat.div_add_mod' n 64
  split
  · refine ⟨_, _, rfl, nextScalar_of_followed 0 v (by omega) ?_ rfl (by rw [hv]; rfl)⟩
    rw [followers?, if_pos (by omega)]
  · split
    · refine ⟨_, _, rfl, nextScalar_of_followed 1 (v / 64) (by omega) ?_ ?_ ?_⟩
      · rw [followers?, if_neg (by omega), if_pos (by omega)]
      · show v / 64 % 32 + 192 - 0xc0 = _
        omega
      · rw [List.cons_append, followed_six _ (secondRange_fits (by omega) (by omega) (by omega)), six, hv]
        rfl
    · split
      · refine ⟨_, _, rfl, nextScalar_of_followed 2 (v / 64 / 64) (by omega) ?_ ?_ ?_⟩
        · rw [followers?, if_neg (by omega), if_neg (by omega), if_pos (by omega)]
        · show v / 4096 % 16 + 224 - 0xe0 = _
          omega
        · rw [List.cons_append, followed_six _ (secondRange_fits (by omega) (by omega) (by omega)), six,
            List.cons_append, followed_next, six, hv]
          rfl
      · refine ⟨_, _, rfl, nextScalar_of_followed 3 (v / 64 / 64 / 64) (by omega) ?_ ?_ ?_⟩
        · rw [followers?, if_neg (by omega), if_neg (by omega), if_neg (by omega), if_pos (by omega)]
        · show v / 262144 % 8 + 240 - 0xf0 = _
          omega
        · have second : v / 4096 = v / 64 / 64 := by omega
          rw [List.cons_append, followed_six _ (secondRange_fits (by omega) (by omega) (by omega)), second, six,
            List.cons_append, followed_next, six, List.cons_append, followed_next, six, hv]
          rfl

/-- **Text is read back from its bytes.** -/
theorem decodeLossy_encode (cs : List Char) : decodeLossy (encode cs) = cs := by
  induction cs with
  | nil => simp [encode, decodeLossy]
  | cons c cs ih =>
    obtain ⟨lead, more, bytes, read⟩ := nextScalar_encodeChar c (encode cs)
    have whole : encode (c :: cs) = lead :: (more ++ encode cs) := by
      rw [encode, List.flatMap_cons, bytes]
      rfl
    rw [whole, decodeLossy, read, ih]
    rfl

end Utf8

/-! ## Lines and their ends -/

/-- How a line ends. -/
inductive LineEnd
  | newline
  | returnNewline
  /-- the text ends -/
  | missing
  /-- the text ends after a carriage return -/
  | strayReturn
deriving DecidableEq

/-- What stands there. -/
def LineEnd.text : LineEnd → List Char
  | newline => ['\n']
  | returnNewline => ['\r', '\n']
  | missing => []
  | strayReturn => ['\r']

/-- The end is one that another line may follow. -/
def LineEnd.Follows : LineEnd → Prop
  | newline | returnNewline => True
  | missing | strayReturn => False

/-- A line and how it ends. -/
structure Line where
  text : List Char
  ending : LineEnd

/-- The line with its end. -/
def Line.whole (l : Line) : List Char := l.text ++ l.ending.text

/-- **The text consists of the lines**, each with its end. -/
structure Lined (text : List Char) (lines : List Line) : Prop where
  whole : lines.flatMap Line.whole = text
  inner : ∀ l ∈ lines, '\n' ∉ l.text
  /-- only the last line need not be ended by a newline -/
  ended : ∀ l ∈ lines.dropLast, l.ending.Follows
  /-- a carriage return before a newline belongs to the end of the line -/
  own : ∀ l ∈ lines, l.ending = .newline → l.text.getLast? ≠ some '\r'
  /-- after the last newline there is no further line unless there is more text -/
  nonempty : ∀ l ∈ lines, l.ending = .missing → l.text ≠ []
  /-- a carriage return is an end of its own at the very end of the text, and nowhere else -/
  stray : (∃ l ∈ lines, l.ending = .strayReturn) ↔ text.getLast? = some '\r'

namespace Lined

variable {text : List Char} {lines : List Line}

theorem nil : Lined [] [] := ⟨rfl, nofun, nofun, nofun, nofun, by simp⟩

/-- The last line, if nothing ends it. -/
theorem last (inner : '\n' ∉ text) (nonempty : text ≠ []) (plain : text.getLast? ≠ some '\r') :
    Lined text [⟨text, .missing⟩] where
  whole := by simp [Line.whole, LineEnd.text]
  inner := by simpa using inner
  ended := nofun
  own := by simp
  nonempty := by simpa using nonempty
  stray := by simp [plain]

/-- The last line, if a carriage return ends it. -/
theorem returned (inner : '\n' ∉ text) : Lined (text ++ ['\r']) [⟨text, .strayReturn⟩] where
  whole := by simp [Line.whole, LineEnd.text]
  inner := by simpa using inner
  ended := nofun
  own := by simp
  nonempty := by simp
  stray := by simp

/-- A line before others. -/
theorem cons {l : Line} (h : Lined text lines) (follows : l.ending.Follows) (inner : '\n' ∉ l.text)
    (own : l.ending = .newline → l.text.getLast? ≠ some '\r') : Lined (l.whole ++ text) (l :: lines) where
  whole := by rw [List.flatMap_cons, h.whole]
  inner := List.forall_mem_cons.mpr ⟨inner, h.inner⟩
  ended := by
    cases lines with
    | nil => exact nofun
    | cons next rest => exact List.forall_mem_cons.mpr ⟨follows, h.ended⟩
  own := List.forall_mem_cons.mpr ⟨own, h.own⟩
  nonempty := List.forall_mem_cons.mpr ⟨fun missing => by rw [missing] at follows; exact follows.elim, h.nonempty⟩
  stray := by
    have ends : l.whole.getLast? = some '\n' ∧ l.ending ≠ .strayReturn := by
      obtain ⟨line, ending⟩ := l
      cases ending with
      | newline | returnNewline => simp [Line.whole, LineEnd.text]
      | missing | strayReturn => exact follows.elim
    rw [List.getLast?_append, ends.1]
    cases hlast : text.getLast? with
    | none => simpa [hlast, ends.2] using h.stray
    | some c => simpa [hlast, ends.2] using h.stray

theorem newline {line : List Char} (h : Lined text lines) (inner : '\n' ∉ line) (plain : line.getLast? ≠ some '\r') :
    Lined (line ++ '\n' :: text) (⟨line, .newline⟩ :: lines) := by
  have more := h.cons (l := ⟨line, .newline⟩) trivial inner fun _ => plain
  rwa [Line.whole, LineEnd.text, List.append_assoc] at more

theorem returnNewline {line : List Char} (h : Lined text lines) (inner : '\n' ∉ line) :
    Lined (line ++ ['\r'] ++ '\n' :: text) (⟨line, .returnNewline⟩ :: lines) := by
  have more := h.cons (l := ⟨line, .returnNewline⟩) trivial inner nofun
  rwa [Line.whole, LineEnd.text, List.append_assoc, List.cons_append, List.cons_append, List.nil_append,
    List.append_cons] at more

end Lined

/-- A text ends in the character, which is dropped, or it does not. -/
theorem dropFinal_cases (c : Char) (cs : List Char) :
    cs = dropFinal c cs ++ [c] ∨ cs.getLast? ≠ some c ∧ dropFinal c cs = cs := by
  unfold dropFinal
  split
  · next h => exact .inl (List.dropLast_append_getLast? c h).symm
  · next h => exact .inr ⟨h, rfl⟩

theorem dropFinal_append {c : Char} {cs : List Char} (nonempty : cs ≠ []) (front : List Char) :
    dropFinal c (front ++ cs) = front ++ dropFinal c cs := by
  unfold dropFinal
  rw [List.getLast?_append_of_ne_nil _ nonempty]
  split
  · exact List.dropLast_append_of_ne_nil nonempty
  · rfl

/-- The lines of a text that has a newline: what stands before the first one, and the lines of what comes after
it. -/
theorem textLines_cons {piece : List Char} (inner : '\n' ∉ piece) (rest : List Char) :
    textLines (piece ++ '\n' :: rest) = dropFinal '\r' piece :: textLines rest := by
  cases rest with
  | nil => simp [textLines, dropFinal, splitOn_of_not_mem inner]
  | cons c rest =>
    have last : dropFinal '\n' ('\n' :: c :: rest) = '\n' :: dropFinal '\n' (c :: rest) :=
      dropFinal_append (List.cons_ne_nil c rest) ['\n']
    simp [textLines, dropFinal_append, last, splitOn_append_cons inner]

/-- The only line of a text without a newline. -/
theorem textLines_last {piece : List Char} (inner : '\n' ∉ piece) (nonempty : piece ≠ []) :
    textLines piece = [dropFinal '\r' piece] := by
  have whole : dropFinal '\n' piece = piece := by
    rw [dropFinal, if_neg fun last => inner (List.mem_of_getLast? last)]
  simp [textLines, whole, splitOn_of_not_mem inner, nonempty]

/-- **A text consists of its lines.** -/
theorem textLines_lined (text : List Char) :
    ∃ lines, Lined text lines ∧ textLines text = lines.map Line.text := by
  suffices ∀ pieces : List (List Char), (∀ piece ∈ pieces, '\n' ∉ piece) →
      ∃ lines, Lined (joinWith '\n' pieces) lines ∧ textLines (joinWith '\n' pieces) = lines.map Line.text by
    have split := this (splitOn '\n' text) fun _ => not_mem_splitOn
    rwa [joinWith_splitOn] at split
  intro pieces inner
  induction pieces with
  | nil => exact ⟨[], .nil, rfl⟩
  | cons piece pieces ih =>
    have here : '\n' ∉ piece := inner piece List.mem_cons_self
    have dropped : '\n' ∉ dropFinal '\r' piece := by
      obtain same | ⟨-, same⟩ := dropFinal_cases '\r' piece
      · exact fun mem => here (same ▸ List.mem_append_left _ mem)
      · rwa [same]
    cases pieces with
    | nil =>
      show ∃ lines, Lined piece lines ∧ textLines piece = _
      by_cases nonempty : piece = []
      · rw [nonempty]
        exact ⟨[], .nil, rfl⟩
      · rw [textLines_last here nonempty]
        obtain same | ⟨plain, same⟩ := dropFinal_cases '\r' piece
        · have whole := Lined.returned dropped
          rw [← same] at whole
          exact ⟨_, whole, rfl⟩
        · rw [same]
          exact ⟨_, .last here nonempty plain, rfl⟩
    | cons next rest =>
      obtain ⟨lines, lined, later⟩ := ih fun p hp => inner p (List.mem_cons_of_mem _ hp)
      show ∃ lines, Lined (piece ++ '\n' :: joinWith '\n' (next :: rest)) lines ∧
        textLines (piece ++ '\n' :: joinWith '\n' (next :: rest)) = _
      rw [textLines_cons here, later]
      obtain same | ⟨plain, same⟩ := dropFinal_cases '\r' piece
      · have more := lined.returnNewline dropped
        rw [← same] at more
        exact ⟨_, more, rfl⟩
      · rw [same]
        exact ⟨_, lined.newline here plain, rfl⟩

/-! ## Captures -/

namespace Streams

/-- The queue and the buffer that are made next. -/
def fresh (s : Streams) : Collector := ⟨⟨s.queues.size⟩, ⟨s.buffers.size⟩⟩

end Streams

/-- The world with a queue and a buffer for what is captured. -/
def World.capturing (w : World) : World := { w with streams := (w.streams.newQueue []).2.newBuffer.2 }

/-- The frame that captured code runs in. -/
def Frame.capturing (f : Frame) (c : Collector) : Frame :=
  f.withPorts ⟨f.ports.input, .queue c.queue, .buffer c.buffer⟩

/-- They are there, and nothing is in them. -/
theorem World.capturing_fresh (w : World) : w.streams.fresh.Within w.capturing.streams ∧
    w.capturing.streams.queues[w.streams.fresh.queue.index]? = some ⟨#[], 0⟩ ∧
    w.capturing.streams.buffers[w.streams.fresh.buffer.index]? = some #[] := by
  refine ⟨⟨?_, ?_⟩, Array.getElem?_push_size, Array.getElem?_push_size⟩
  · exact Nat.lt_of_lt_of_eq (Nat.lt_succ_self _) (Array.size_push _).symm
  · exact Nat.lt_of_lt_of_eq (Nat.lt_succ_self _) (Array.size_push _).symm

theorem Runner.capture_run {r : Runner} {op : Operation} {f : Frame} {w w' : World}
    (run : r.operation op (f.capturing w.streams.fresh) w.capturing = (.ok (), w')) :
    r.capture op f w = (.ok (w'.streams.captured w.streams.fresh.queue w.streams.fresh.buffer).all, w') :=
  bind_run_ok (k := fun _ => do
    return ((← get).streams.captured w.streams.fresh.queue w.streams.fresh.buffer).all) run

namespace Collector

variable {c : Collector} {outs : List Output} {s s' : Streams}

/-- What has been collected from nothing is what was put out. -/
theorem Receives.captured (h : c.Receives outs s s') (queue : s.queues[c.queue.index]? = some ⟨#[], 0⟩)
    (buffer : s.buffers[c.buffer.index]? = some #[]) :
    s'.captured c.queue c.buffer = ⟨outs.filterMap Output.value?, outs.flatMap Output.written⟩ := by
  have values := h.values
  have bytes := h.bytes
  rw [queue] at values
  rw [buffer] at bytes
  simp [Streams.captured, Streams.waiting, values, bytes, Array.getD_eq_getD_getElem?]

end Collector

/-- **A capture yields all that the captured code puts out.**  What the code puts out is a sequence of outputs, none of
which goes anywhere else: the standard output is as it was, and nothing is added to the queues and buffers that were
there.  The capture yields the values of that sequence, in order, and then lines.  If the bytes of the sequence are
those of a text, it consists of these lines: with its end behind each of them, they are the text again.  The frame
reads from a queue that is there, if from any, so that the code cannot read its own output. -/
theorem capture_keeps_output {fuel : Nat} {op : Operation} {span : Span} {f : Frame} {w w' : World}
    (reads : ∀ q, f.ports.input = some q → q.index < w.streams.queues.size)
    (succeeds : (Runner.ofFuel fuel).operation op (f.capturing w.streams.fresh) w.capturing = (.ok (), w')) :
    ∃ outs lines, w.streams.fresh.Receives outs w.capturing.streams w'.streams ∧
      (Runner.ofFuel (fuel + 1)).expr (.capture op span) f w =
        (.ok (outs.filterMap Output.value? ++ lines.map fun l => .text (String.ofList l.text)), w') ∧
      (∀ text, outs.flatMap Output.written = Utf8.encode text → Lined text lines) ∧
      w'.streams.standard = w.streams.standard ∧
      (∀ i < w.streams.queues.size, w'.streams.valuesOf i = w.streams.valuesOf i) ∧
      ∀ i < w.streams.buffers.size, w'.streams.buffers[i]? = w.streams.buffers[i]? := by
  obtain ⟨within, queue, buffer⟩ := w.capturing_fresh
  have flows := (Runner.ofFuel_flows fuel).operation op
    (Reach.admits_ofPorts (f.capturing w.streams.fresh).ports) w.capturing
  rw [succeeds] at flows
  have apart : ¬(Reach.ofPorts (f.capturing w.streams.fresh).ports).reads w.streams.fresh.queue :=
    fun read => Nat.lt_irrefl _ (reads _ read)
  obtain ⟨outs, received⟩ := flows.receives apart within
  obtain ⟨lines, lined, same⟩ := textLines_lined (Utf8.decodeLossy (outs.flatMap Output.written))
  refine ⟨outs, lines, received, ?_, fun text bytes => ?_, flows.standard_eq nofun nofun, fun i old => ?_,
    fun i old => ?_⟩
  · refine (located_run_ok (Runner.capture_run succeeds)).trans ?_
    rw [received.captured queue buffer, Captured.all, same, List.map_map]
    rfl
  · rwa [bytes, Utf8.decodeLossy_encode] at lined
  · refine (flows.valuesOf_eq (Streams.lt_size_newQueue old) fun here => ?_).trans (Streams.valuesOf_newQueue old)
    cases here
    exact Nat.lt_irrefl _ old
  · refine (flows.buffer?_eq (Streams.lt_size_newBuffer old) fun here => ?_).trans (Streams.buffer?_newBuffer old)
    cases here
    exact Nat.lt_irrefl _ old

namespace Session

/-- Code that prints a text and puts a word, and what it does in a capture at the top. -/
def printing (text word : String) : Operation :=
  .chunk [.call (.name "print") [.literal text default] default, .call (.name "put") [.literal word default] default]
    default

def capturedFrame : Frame := bare.frame (.interactive "") .standard (bare.world.store.newScope []).1

def printed (text word : String) : Except Stop Unit × World :=
  (Runner.ofFuel 4).operation (printing text word) (capturedFrame.capturing bare.entered.streams.fresh)
    bare.entered.capturing

/-- The capture of a text with an empty line, a carriage return before a newline and a last line that nothing ends. -/
theorem capture_keeps_output_lines :
    ∃ (outs : List Output) (lines : List Line),
      (outs.filterMap Output.value?).map Value.display = ["c"] ∧ Lined "a\r\n\nb".toList lines ∧
      ((Runner.ofFuel 5).expr (.capture (printing "a\r\n\nb" "c") default) capturedFrame bare.entered).1 =
        .ok (outs.filterMap Output.value? ++ lines.map fun l => .text (String.ofList l.text)) := by
  have ran : printed "a\r\n\nb" "c" = (.ok (), (printed "a\r\n\nb" "c").2) := ran_of_isOk (by decide +kernel)
  obtain ⟨outs, lines, received, yields, lined, -⟩ := @capture_keeps_output 4 (printing "a\r\n\nb" "c") default
    capturedFrame bare.entered _ nofun ran
  obtain ⟨-, queue, buffer⟩ := bare.entered.capturing_fresh
  have collected := received.captured queue buffer
  have values : _ = outs.filterMap Output.value? := congrArg Captured.values collected
  have bytes : _ = outs.flatMap Output.written := congrArg Captured.bytes collected
  refine ⟨outs, lines, ?_, lined _ ?_, congrArg Prod.fst yields⟩
  · rw [← values]
    decide +kernel
  · rw [← bytes]
    decide +kernel

/-- **A carriage return at the very end of a text is dropped**, although no newline follows it.  The bytes that are
captured are those of the text, and what is yielded is its only line without the carriage return.  No ends of lines,
of those that lines may have, make it the text again. -/
theorem stray_return_dropped :
    (bare.evaluateCaptured 60 (.interactive "print \"a\\r\"") none).2.1.bytes = Utf8.encode "a\r".toList ∧
      (bare.evaluateCaptured 60 (.interactive "put (print \"a\\r\")") none).2.1.values.map Value.display = ["a"] ∧
      ∀ lines : List Line, lines.map Line.text = ["a".toList] → (∀ l ∈ lines, l.ending ≠ .strayReturn) →
        lines.flatMap Line.whole ≠ "a\r".toList := by
  refine ⟨by decide +kernel, by decide +kernel, fun lines texts plain whole => ?_⟩
  obtain ⟨⟨text, ending⟩, rfl, rfl⟩ := List.map_eq_singleton_iff.mp texts
  cases ending with
  | strayReturn => exact plain _ List.mem_cons_self rfl
  | newline | returnNewline | missing => exact absurd whole (by decide)

end Session

end ValueShell
