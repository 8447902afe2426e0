/-
  What running code can do to the streams.

  Code puts values and bytes out where its ports lead, and takes values from the queue that they name as its input.
  It makes queues and buffers of its own for the stages of pipelines and for captures, and only to those has it any
  further access.  `Streams.Flows` says this once, as a relation between the streams before and after a run, so that
  a fact about streams is an induction over that relation and not over the evaluator.

  Two such facts are at the end.  What code has no access to stays as it was (`Flows.standard_eq`,
  `Flows.valuesOf_eq`, `Flows.buffer?_eq`).  And all that code does to a queue that it does not read, and to a
  buffer, is to put outputs there, one after the other (`Flows.receives`): nothing is taken back, and nothing that
  is there is changed.

  The rules for `Flowing` follow the combinators that the evaluator is written with; the rules of the evaluator are
  in `FlowingEvaluation`.
-/
import ValueShell.Proofs.AlikeStreams
import ValueShell.Proofs.Evolution

namespace ValueShell

open Eval

/-! ## Access to streams -/

/-- The streams that code has access to. -/
structure Reach where
  /-- the queues that it may take values from -/
  reads : QueueId → Prop
  values : ValueSink → Prop
  bytes : ByteSink → Prop

namespace Reach

/-- Access to a queue in addition. -/
def withQueue (reach : Reach) (q : QueueId) : Reach where
  reads p := reach.reads p ∨ p = q
  values sink := reach.values sink ∨ sink = .queue q
  bytes := reach.bytes

/-- Access to a buffer in addition. -/
def withBuffer (reach : Reach) (b : BufferId) : Reach where
  reads := reach.reads
  values := reach.values
  bytes sink := reach.bytes sink ∨ sink = .buffer b

/-- The ports lead nowhere else. -/
structure Admits (reach : Reach) (p : Ports) : Prop where
  input : ∀ q, p.input = some q → reach.reads q
  values : reach.values p.values
  bytes : reach.bytes p.bytes

/-- The streams that ports lead to. -/
def ofPorts (p : Ports) : Reach := ⟨fun q => p.input = some q, (· = p.values), (· = p.bytes)⟩

theorem admits_ofPorts (p : Ports) : (ofPorts p).Admits p := ⟨fun _ h => h, rfl, rfl⟩

end Reach

/-! ## The relation -/

/-- **What a run can do to the streams** that has access to those in reach. -/
inductive Streams.Flows : Reach → Streams → Streams → Prop
  | refl {reach : Reach} (s : Streams) : Flows reach s s
  | trans {reach : Reach} {s s' s'' : Streams} (first : Flows reach s s') (later : Flows reach s' s'') :
      Flows reach s s''
  | put {reach : Reach} {s : Streams} {sink : ValueSink} (h : reach.values sink) (v : Value) :
      Flows reach s (s.put sink v)
  | write {reach : Reach} {s : Streams} {sink : ByteSink} (h : reach.bytes sink) (bytes : List UInt8) :
      Flows reach s (s.write sink bytes)
  | take {reach : Reach} {s : Streams} {q : QueueId} (h : reach.reads q) : Flows reach s (s.skip q)
  /-- a command of the system reads standard input and writes to standard error -/
  | pass {reach : Reach} {s : Streams} (errors input : List UInt8) : Flows reach s (s.pass errors input)
  /-- a queue is made, for what comes then -/
  | queue {reach : Reach} {s s' : Streams}
      (h : Flows (reach.withQueue ⟨s.queues.size⟩) (s.newQueue []).2 s') : Flows reach s s'
  | buffer {reach : Reach} {s s' : Streams}
      (h : Flows (reach.withBuffer ⟨s.buffers.size⟩) s.newBuffer.2 s') : Flows reach s s'

namespace Eval

/-- **A computation that has access to the streams in reach only**, whatever its outcome. -/
def Flowing {α : Type} (reach : Reach) (x : Eval α) : Prop :=
  ∀ w : World, w.streams.Flows reach (x w).2.streams

/-! ## Rules -/

section Rules

variable {α β : Type} {reach : Reach}

/-- Nothing is done to the streams. -/
theorem flows_pure (a : α) : Flowing reach (pure a) := fun w => .refl w.streams

/-- One computation after the other. -/
theorem flows_bind {x : Eval α} {k : α → Eval β} (hx : Flowing reach x) (hk : ∀ a, Flowing reach (k a)) :
    Flowing reach (x >>= k) := by
  intro w
  have first := hx w
  rw [bind_run]
  rcases hr : x w with ⟨stop | a, w'⟩ <;> rw [hr] at first
  · exact first
  · exact .trans first (hk a w')

/-- To look at the world does nothing to it. -/
theorem flows_get {k : World → Eval β} (hk : ∀ w, Flowing reach (k w)) : Flowing reach (get >>= k) :=
  fun w => hk w w

/-- To end does nothing. -/
theorem flows_stop (stop : Stop) : Flowing reach (throw stop : Eval α) := fun w => .refl w.streams

theorem flows_note (e : Event) : Flowing reach (note e) := fun w => .refl w.streams

theorem flows_fault (f : Fault) : Flowing reach (fault f : Eval α) :=
  flows_bind (flows_note _) fun _ => flows_stop _

theorem flows_ofExcept (r : Except Fault α) : Flowing reach (ofExcept r) := by
  cases r with
  | ok a => exact flows_pure a
  | error f => exact flows_fault f

/-- What becomes of a failure does not matter to the streams. -/
theorem flows_mapStop {x : Eval α} (change : Stop → Stop) (hx : Flowing reach x) :
    Flowing reach (x.mapStop change) := by
  intro w
  rw [mapStop_run]
  exact hx w

theorem flows_located {x : Eval α} (site : Site) (hx : Flowing reach x) : Flowing reach (x.located site) :=
  flows_mapStop _ hx

/-- Nor does it matter that a failure is settled. -/
theorem flows_settle {x : Eval α} (hx : Flowing reach x) : Flowing reach (settle x) := by
  intro w
  have first := hx w
  unfold settle
  rcases hr : x w with ⟨stop | a, w'⟩ <;> rw [hr] at first
  · cases stop <;> exact first
  · exact first

theorem flows_resume (r : Except Unwind α) : Flowing reach (resume r) := by
  cases r with
  | ok a => exact flows_pure a
  | error u => exact flows_stop _

theorem flows_loopBody {x : Eval Unit} (hx : Flowing reach x) : Flowing reach (loopBody x) := by
  refine flows_bind (flows_settle hx) fun outcome => ?_
  split
  · exact flows_pure _
  · exact flows_pure _
  · exact flows_pure _
  · exact flows_stop _

theorem flows_returning {x : Eval Unit} (hx : Flowing reach x) : Flowing reach (returning x) := by
  refine flows_bind (flows_settle hx) fun outcome => ?_
  split
  · exact flows_pure _
  · exact flows_resume _

/-- A loop does what its steps do, one after the other. -/
theorem flows_forEach {step : α → Eval Bool} (h : ∀ a, Flowing reach (step a)) (items : List α) :
    Flowing reach (forEach step items) := by
  induction items with
  | nil => exact flows_pure _
  | cons item rest ih =>
    refine flows_bind (h item) fun goesOn => ?_
    split
    · exact ih
    · exact flows_pure _

theorem flows_forM {step : α → Eval Unit} (h : ∀ a, Flowing reach (step a)) (items : List α) :
    Flowing reach (items.forM step) := by
  induction items with
  | nil => exact flows_pure _
  | cons item rest ih => exact flows_bind (h item) fun _ => ih

theorem flows_mapM {step : α → Eval β} (h : ∀ a, Flowing reach (step a)) (items : List α) :
    Flowing reach (items.mapM step) := by
  induction items with
  | nil => exact flows_pure _
  | cons item rest ih =>
    rw [List.mapM_cons]
    exact flows_bind (h item) fun _ => flows_bind ih fun _ => flows_pure _

theorem flows_foldlM {step : β → α → Eval β} (h : ∀ b a, Flowing reach (step b a)) (items : List α)
    (b : β) : Flowing reach (items.foldlM step b) := by
  induction items generalizing b with
  | nil => exact flows_pure _
  | cons item rest ih =>
    rw [List.foldlM_cons]
    exact flows_bind (h b item) fun b => ih b

end Rules

/-! ## The parts of the world -/

section Parts

variable {α β : Type} {reach : Reach} {p : Ports}

/-- The store is no stream. -/
theorem flows_updateStore (change : Store → α × Store) : Flowing reach (updateStore change) :=
  fun w => .refl w.streams

/-- Nor is the cache. -/
theorem flows_updateModules (change : ModuleCache → ModuleCache) : Flowing reach (updateModules change) :=
  fun w => .refl w.streams

theorem flows_tryCell {ε : Type} (c : CellId) (change : Cell → Except ε Cell) :
    Flowing reach (tryCell c change) := by
  intro w
  rw [tryCell_run]
  split <;> exact .refl w.streams

/-- Nor is the environment. -/
theorem flows_tryEnvironment {ε : Type} (change : Environment → Except ε Environment) :
    Flowing reach (tryEnvironment change) := by
  intro w
  rw [tryEnvironment, get_bind_run]
  cases change w.environment <;> exact .refl w.streams

/-- A value is put out where the ports lead. -/
theorem flows_put (h : reach.Admits p) (v : Value) : Flowing reach (put p v) := fun _ => .put h.values v

/-- Bytes are written where the ports lead. -/
theorem flows_writeBytes (h : reach.Admits p) (bytes : List UInt8) : Flowing reach (writeBytes p bytes) :=
  fun _ => .write h.bytes bytes

/-- A value is taken from a queue within reach. -/
theorem flows_takeFrom {q : QueueId} (h : reach.reads q) : Flowing reach (takeFrom q) := by
  intro w
  rw [takeFrom, updateStreams_run]
  cases w.streams.next? q with
  | none => exact .refl _
  | some v => exact .take h

/-- Values are taken for as long as the step asks for more. -/
theorem flows_takeEach {q : QueueId} (h : reach.reads q) {step : Value → Eval Bool}
    (hs : ∀ v, Flowing reach (step v)) (count : Nat) : Flowing reach (takeEach q step count) := by
  induction count with
  | zero => exact flows_pure _
  | succ count ih =>
    refine flows_bind (flows_takeFrom h) fun next => ?_
    cases next with
    | none => exact flows_pure _
    | some v =>
      refine flows_bind (hs v) fun goesOn => ?_
      split
      · exact ih
      · exact flows_pure _

/-- The input of the ports is within reach, if they have one. -/
theorem flows_eachInput (h : reach.Admits p) {step : Value → Eval Bool}
    (hs : ∀ v, Flowing reach (step v)) : Flowing reach (eachInput p step) := by
  unfold eachInput
  split
  · exact flows_pure _
  · next q hq => exact flows_get fun w => flows_takeEach (h.input q hq) hs _

/-- What comes after a queue is made has access to it. -/
theorem flows_newQueue {k : QueueId → Eval β} (hk : ∀ q, Flowing (reach.withQueue q) (k q)) :
    Flowing reach ((updateStreams fun s => s.newQueue []) >>= k) := fun w =>
  .queue (hk _ { w with streams := (w.streams.newQueue []).2 })

/-- A new buffer is within reach of what comes next, and of nothing before it. -/
theorem flows_newBuffer {k : BufferId → Eval β} (hk : ∀ b, Flowing (reach.withBuffer b) (k b)) :
    Flowing reach (updateStreams Streams.newBuffer >>= k) := fun w =>
  .buffer (hk _ { w with streams := w.streams.newBuffer.2 })

end Parts

end Eval

/-! ## Single changes -/

namespace Streams

variable {s : Streams} {i : Nat}

/-- To put a value out changes no buffer. -/
@[simp] theorem buffers_put (sink : ValueSink) (v : Value) : (s.put sink v).buffers = s.buffers := by
  cases sink <;> rfl

/-- To write bytes changes no queue. -/
@[simp] theorem queues_write (sink : ByteSink) (bytes : List UInt8) : (s.write sink bytes).queues = s.queues := by
  cases sink <;> rfl

/-- And a value changes no queue but the one it is put in. -/
theorem queue?_put_of_ne {sink : ValueSink} (h : sink ≠ .queue ⟨i⟩) (v : Value) :
    (s.put sink v).queues[i]? = s.queues[i]? := by
  cases sink with
  | standard => rfl
  | queue q => exact (Array.getElem?_modify ..).trans (if_neg fun same => h (by rw [← same]))

/-- There it comes last. -/
theorem queue?_put (q : QueueId) (v : Value) : (s.put (.queue q) v).queues[q.index]? =
    s.queues[q.index]?.map fun queue => { queue with values := queue.values.push v } :=
  (Array.getElem?_modify ..).trans (if_pos rfl)

/-- Bytes change no buffer but the one they are written to. -/
theorem buffer?_write_of_ne {sink : ByteSink} (h : sink ≠ .buffer ⟨i⟩) (bytes : List UInt8) :
    (s.write sink bytes).buffers[i]? = s.buffers[i]? := by
  cases sink with
  | standard => rfl
  | buffer b => exact (Array.getElem?_modify ..).trans (if_neg fun same => h (by rw [← same]))

/-- There they come last. -/
theorem buffer?_write (b : BufferId) (bytes : List UInt8) : (s.write (.buffer b) bytes).buffers[b.index]? =
    s.buffers[b.index]?.map (· ++ bytes.toArray) :=
  (Array.getElem?_modify ..).trans (if_pos rfl)

/-- To take from a queue changes no other. -/
theorem queue?_skip_of_ne {q : QueueId} (h : q.index ≠ i) : (s.skip q).queues[i]? = s.queues[i]? :=
  (Array.getElem?_modify ..).trans (if_neg h)

/-- A value that is taken stays written down. -/
theorem valuesOf_skip (q : QueueId) : (s.skip q).valuesOf i = s.valuesOf i := by
  unfold valuesOf
  by_cases h : q.index = i
  · rw [← h]
    show (Option.map _ (Array.modify ..)[q.index]?).getD _ = _
    rw [Array.getElem?_modify, if_pos rfl, Option.map_map]
    rfl
  · rw [queue?_skip_of_ne h]

theorem lt_size_newQueue (h : i < s.queues.size) : i < (s.newQueue []).2.queues.size :=
  Nat.lt_of_lt_of_eq (Nat.lt_succ_of_lt h) (Array.size_push _).symm

/-- A new queue has nothing to do with those that are there. -/
theorem valuesOf_newQueue (known : i < s.queues.size) : (s.newQueue []).2.valuesOf i = s.valuesOf i := by
  rw [valuesOf, s.queues_newQueue known, valuesOf]

theorem lt_size_newBuffer (h : i < s.buffers.size) : i < s.newBuffer.2.buffers.size :=
  Nat.lt_of_lt_of_eq (Nat.lt_succ_of_lt h) (Array.size_push _).symm

/-- Nor has a new buffer. -/
theorem buffer?_newBuffer (known : i < s.buffers.size) : s.newBuffer.2.buffers[i]? = s.buffers[i]? := by
  show (s.buffers.push _)[i]? = _
  rw [Array.getElem?_push, if_neg (Nat.ne_of_lt known)]

end Streams

/-! ## What a run leaves alone -/

namespace Streams.Flows

variable {reach : Reach} {s s' : Streams} {i : Nat}

/-- Queues and buffers are never removed. -/
theorem sizes (h : s.Flows reach s') :
    s.queues.size ≤ s'.queues.size ∧ s.buffers.size ≤ s'.buffers.size := by
  induction h with
  | refl | pass => exact ⟨Nat.le_refl _, Nat.le_refl _⟩
  | trans _ _ first later => exact ⟨Nat.le_trans first.1 later.1, Nat.le_trans first.2 later.2⟩
  | @put _ _ sink =>
    cases sink with
    | standard => exact ⟨Nat.le_refl _, Nat.le_refl _⟩
    | queue => exact ⟨Nat.le_of_eq Array.size_modify.symm, Nat.le_refl _⟩
  | @write _ _ sink =>
    cases sink with
    | standard => exact ⟨Nat.le_refl _, Nat.le_refl _⟩
    | buffer => exact ⟨Nat.le_refl _, Nat.le_of_eq Array.size_modify.symm⟩
  | take => exact ⟨Nat.le_of_eq Array.size_modify.symm, Nat.le_refl _⟩
  | queue _ ih =>
    refine ⟨Nat.le_trans ?_ ih.1, ih.2⟩
    exact Nat.le_of_lt (Nat.lt_of_lt_of_eq (Nat.lt_succ_self _) (Array.size_push _).symm)
  | buffer _ ih =>
    refine ⟨ih.1, Nat.le_trans ?_ ih.2⟩
    exact Nat.le_of_lt (Nat.lt_of_lt_of_eq (Nat.lt_succ_self _) (Array.size_push _).symm)

/-- Code without access to the standard output leaves it as it was. -/
theorem standard_eq (h : s.Flows reach s') (values : ¬reach.values .standard)
    (bytes : ¬reach.bytes .standard) : s'.standard = s.standard := by
  induction h with
  | refl | take | pass => rfl
  | trans _ _ first later => exact (later values bytes).trans (first values bytes)
  | @put _ _ sink out =>
    cases sink with
    | standard => exact absurd out values
    | queue => rfl
  | @write _ _ sink out =>
    cases sink with
    | standard => exact absurd out bytes
    | buffer => rfl
  | queue _ ih => exact ih (by simpa [Reach.withQueue] using values) bytes
  | buffer _ ih => exact ih values (by simpa [Reach.withBuffer] using bytes)

/-- Code that cannot put values into a queue adds none; it may take some. -/
theorem valuesOf_eq (h : s.Flows reach s') (known : i < s.queues.size)
    (apart : ¬reach.values (.queue ⟨i⟩)) : s'.valuesOf i = s.valuesOf i := by
  induction h with
  | refl | pass => rfl
  | trans first _ ih later =>
    exact (later (Nat.lt_of_lt_of_le known first.sizes.1) apart).trans (ih known apart)
  | put out v => rw [valuesOf, queue?_put_of_ne (fun same => apart (same ▸ out)), valuesOf]
  | write => rw [valuesOf, queues_write, valuesOf]
  | take => exact valuesOf_skip _
  | @queue _ s _ _ ih =>
    rw [ih, valuesOf_newQueue known]
    · exact lt_size_newQueue known
    · rintro (out | same)
      · exact apart out
      · cases same
        exact Nat.lt_irrefl _ known
  | buffer _ ih => exact ih known apart

/-- Code that cannot write to a buffer leaves it as it was. -/
theorem buffer?_eq (h : s.Flows reach s') (known : i < s.buffers.size)
    (apart : ¬reach.bytes (.buffer ⟨i⟩)) : s'.buffers[i]? = s.buffers[i]? := by
  induction h with
  | refl | take | pass => rfl
  | trans first _ ih later =>
    exact (later (Nat.lt_of_lt_of_le known first.sizes.2) apart).trans (ih known apart)
  | put => rw [buffers_put]
  | write out => exact buffer?_write_of_ne (fun same => apart (same ▸ out)) _
  | queue _ ih => exact ih known apart
  | @buffer _ s _ _ ih =>
    rw [ih, buffer?_newBuffer known]
    · exact lt_size_newBuffer known
    · rintro (out | same)
      · exact apart out
      · cases same
        exact Nat.lt_irrefl _ known

end Streams.Flows

/-! ## What a run puts out -/

/-- Something that code puts out. -/
inductive Output
  | value (v : Value)
  | bytes (written : List UInt8)

namespace Output

/-- The value that is put out. -/
def value? : Output → Option Value
  | value v => some v
  | bytes _ => none

/-- The bytes that are put out. -/
def written : Output → List UInt8
  | value _ => []
  | bytes written => written

end Output

/-- A queue and a buffer in which outputs are collected. -/
structure Collector where
  queue : QueueId
  buffer : BufferId

namespace Collector

variable {c : Collector} {s s' s'' : Streams} {outs more : List Output}

/-- The queue and the buffer are there. -/
structure Within (c : Collector) (s : Streams) : Prop where
  queue : c.queue.index < s.queues.size
  buffer : c.buffer.index < s.buffers.size

/-- **The outputs are added, and nothing else is done**: the values are put behind those that the queue has, in
order, and as many of them are taken as before; and the bytes are written after those that the buffer has. -/
structure Receives (c : Collector) (outs : List Output) (s s' : Streams) : Prop where
  values : s'.queues[c.queue.index]? = s.queues[c.queue.index]?.map fun queue =>
    { queue with values := queue.values ++ (outs.filterMap Output.value?).toArray }
  bytes : s'.buffers[c.buffer.index]? = s.buffers[c.buffer.index]?.map
    (· ++ (outs.flatMap Output.written).toArray)

/-- A change of other streams. -/
theorem receives_nothing (queue : s'.queues[c.queue.index]? = s.queues[c.queue.index]?)
    (buffer : s'.buffers[c.buffer.index]? = s.buffers[c.buffer.index]?) : c.Receives [] s s' where
  values := by simp [queue]
  bytes := by simp [buffer]

/-- A value is received by the queue of the capture. -/
theorem receives_value (s : Streams) (v : Value) : c.Receives [.value v] s (s.put (.queue c.queue) v) where
  values := by simp [Streams.queue?_put, Output.value?]
  bytes := by simp [Output.written]

/-- Bytes are received by its buffer. -/
theorem receives_bytes (s : Streams) (bytes : List UInt8) :
    c.Receives [.bytes bytes] s (s.write (.buffer c.buffer) bytes) where
  values := by simp [List.filterMap_cons, Output.value?]
  bytes := by simp [Streams.buffer?_write, Output.written]

/-- What is received later comes after what was received first. -/
theorem Receives.trans (first : c.Receives outs s s') (later : c.Receives more s' s'') :
    c.Receives (outs ++ more) s s'' where
  values := by simp [later.values, first.values, Function.comp_def]
  bytes := by simp [later.bytes, first.bytes, Function.comp_def]

end Collector

/-- **All that a run does to a queue that it cannot read from, and to a buffer, is to put outputs there.** -/
theorem Streams.Flows.receives {reach : Reach} {s s' : Streams} {c : Collector} (h : s.Flows reach s')
    (apart : ¬reach.reads c.queue) (within : c.Within s) : ∃ outs, c.Receives outs s s' := by
  induction h with
  | refl | pass => exact ⟨[], Collector.receives_nothing rfl rfl⟩
  | trans first _ ih later =>
    obtain ⟨outs, received⟩ := ih apart within
    have still : c.Within _ :=
      ⟨Nat.lt_of_lt_of_le within.queue first.sizes.1, Nat.lt_of_lt_of_le within.buffer first.sizes.2⟩
    obtain ⟨more, receivedThen⟩ := later apart still
    exact ⟨outs ++ more, received.trans receivedThen⟩
  | @put _ s sink _ v =>
    by_cases here : sink = .queue c.queue
    · subst here
      exact ⟨_, Collector.receives_value s v⟩
    · exact ⟨[], Collector.receives_nothing (queue?_put_of_ne here v) (by rw [buffers_put])⟩
  | @write _ s sink _ bytes =>
    by_cases here : sink = .buffer c.buffer
    · subst here
      exact ⟨_, Collector.receives_bytes s bytes⟩
    · exact ⟨[], Collector.receives_nothing (by rw [queues_write]) (buffer?_write_of_ne here bytes)⟩
  | @take _ _ q read =>
    have other : q.index ≠ c.queue.index := fun same => apart (by cases q; cases same; exact read)
    exact ⟨[], Collector.receives_nothing (queue?_skip_of_ne other) rfl⟩
  | @queue _ s _ _ ih =>
    have new : (⟨s.queues.size⟩ : QueueId) ≠ c.queue := fun same => by
      have old := within.queue
      rw [← same] at old
      exact Nat.lt_irrefl _ old
    obtain ⟨outs, received⟩ := ih (not_or.mpr ⟨apart, new.symm⟩)
      ⟨lt_size_newQueue within.queue, within.buffer⟩
    have made : c.Receives [] s (s.newQueue []).2 :=
      Collector.receives_nothing (s.queues_newQueue within.queue []) rfl
    exact ⟨outs, made.trans received⟩
  | @buffer _ s _ _ ih =>
    obtain ⟨outs, received⟩ := ih apart
      ⟨within.queue, lt_size_newBuffer within.buffer⟩
    have made : c.Receives [] s s.newBuffer.2 :=
      Collector.receives_nothing rfl (buffer?_newBuffer within.buffer)
    exact ⟨outs, made.trans received⟩

end ValueShell
