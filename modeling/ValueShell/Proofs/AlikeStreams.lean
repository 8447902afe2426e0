/-
  Streams that are alike.

  Code writes to the queues and buffers that it is given, and makes new ones.  The new ones hold the same
  on both sides.  Of those that were there before it is known only what was added to them: whatever they
  held, the same was put after it.  The same is true of the standard output and of standard error.
-/
import ValueShell.Proofs.Likeness

namespace ValueShell

/-! ## Additions -/

/-- What was added to `held` and to `held'` since is related one by one. -/
def Added {α β : Type} (R : α → β → Prop) (held : List α) (held' : List β) (now : List α)
    (now' : List β) : Prop :=
  ∃ out out', now = held ++ out ∧ now' = held' ++ out' ∧ List.Forall₂ R out out'

namespace Added

variable {α β : Type} {R : α → β → Prop} {held now more : List α} {held' now' more' : List β}

/-- Nothing has been added. -/
theorem refl (held : List α) (held' : List β) : Added R held held' held held' :=
  ⟨[], [], (List.append_nil _).symm, (List.append_nil _).symm, .nil⟩

/-- What is added on both sides is related. -/
theorem append (h : Added R held held' now now') (hm : List.Forall₂ R more more') :
    Added R held held' (now ++ more) (now' ++ more') := by
  obtain ⟨out, out', rfl, rfl, hout⟩ := h
  refine ⟨out ++ more, out' ++ more', List.append_assoc .., List.append_assoc .., ?_⟩
  exact List.rel_append hout hm

end Added

/-! ## Streams -/

namespace Streams

/-- The values that were put into a queue. -/
def valuesOf (s : Streams) (i : Nat) : List Value := ((s.queues[i]?).map (·.values.toList)).getD []

/-- How many values were taken out of a queue. -/
def takenOf (s : Streams) (i : Nat) : Nat := ((s.queues[i]?).map Queue.taken).getD 0

/-- The bytes that were written to a buffer. -/
def bytesOf (s : Streams) (i : Nat) : List UInt8 := ((s.buffers[i]?).map Array.toList).getD []

theorem takenOf_modify (s : Streams) (i m : Nat) {change : Queue → Queue}
    (keeps : i = m → ∀ q, (change q).taken = q.taken) :
    takenOf { s with queues := s.queues.modify i change } m = s.takenOf m := by
  unfold takenOf
  dsimp only
  rw [Array.getElem?_modify]
  by_cases changed : i = m
  · rw [if_pos changed]
    cases s.queues[m]? with
    | none => rfl
    | some q => exact keeps changed q
  · rw [if_neg changed]

/-- A new queue leaves the others alone. -/
theorem queues_newQueue (s : Streams) {i : Nat} (known : i < s.queues.size) (values : List Value) :
    (s.newQueue values).2.queues[i]? = s.queues[i]? := by
  show (s.queues.push _)[i]? = _
  rw [Array.getElem?_push, if_neg (Nat.ne_of_lt known)]

end Streams

/-- The same number taken out of values that are alike. -/
structure Queue.Alike (ρ : Matching) (q q' : Queue) : Prop where
  values : Values ρ q.values.toList q'.values.toList
  taken : q.taken = q'.taken

/-- **Streams that are alike.**  New queues and buffers hold the same; to the old ones that are matched the
same was added, and nothing was taken out of them. -/
structure Streams.Alike (ρ : Matching) (s s' : Streams) : Prop where
  queues : ∀ k, Option.Rel (Queue.Alike ρ) s.queues[ρ.queues.start + k]?
    s'.queues[ρ.queues.start' + k]?
  outlets : ∀ i j, ρ.queues.old i j →
    Added (Value.Alike ρ) (ρ.held.valuesOf i) (ρ.held'.valuesOf j) (s.valuesOf i) (s'.valuesOf j) ∧
      i < s.queues.size ∧ j < s'.queues.size
  untaken : ∀ i j, ρ.queues.old i j →
    s.takenOf i = ρ.held.takenOf i ∧ s'.takenOf j = ρ.held'.takenOf j
  queuesInStep : ρ.queues.InStep s.queues.size s'.queues.size
  buffers : ∀ k, s.buffers[ρ.buffers.start + k]? = s'.buffers[ρ.buffers.start' + k]?
  byteOutlets : ∀ i j, ρ.buffers.old i j →
    Added Eq (ρ.held.bytesOf i) (ρ.held'.bytesOf j) (s.bytesOf i) (s'.bytesOf j) ∧
      i < s.buffers.size ∧ j < s'.buffers.size
  buffersInStep : ρ.buffers.InStep s.buffers.size s'.buffers.size
  standard : Added Eq ρ.held.standard.toList ρ.held'.standard.toList s.standard.toList
    s'.standard.toList
  errors : Added Eq ρ.held.errors.toList ρ.held'.errors.toList s.errors.toList s'.errors.toList
  input : s.input = s'.input
  programs : s.programs = s'.programs

/-- A new queue, which code may read from. -/
def Matching.Input (ρ : Matching) (q q' : QueueId) : Prop := ρ.queues.InStep q.index q'.index

/-- Where values may go. -/
inductive ValueSink.Alike (ρ : Matching) : ValueSink → ValueSink → Prop
  | standard : ValueSink.Alike ρ .standard .standard
  | queue {q q' : QueueId} (h : ρ.queues.Rel q.index q'.index) :
      ValueSink.Alike ρ (.queue q) (.queue q')

/-- Where bytes may go. -/
inductive ByteSink.Alike (ρ : Matching) : ByteSink → ByteSink → Prop
  | standard : ByteSink.Alike ρ .standard .standard
  | buffer {b b' : BufferId} (h : ρ.buffers.Rel b.index b'.index) :
      ByteSink.Alike ρ (.buffer b) (.buffer b')

/-- Ports that lead to the same places. -/
structure Ports.Alike (ρ : Matching) (p p' : Ports) : Prop where
  input : Option.Rel ρ.Input p.input p'.input
  values : p.values.Alike ρ p'.values
  bytes : p.bytes.Alike ρ p'.bytes

/-- The queues of the outputs stand for each other, and what is made from now on. -/
def Pairing.valueSinks (p p' : Ports) (s s' : Streams) : Pairing :=
  .since s.queues.size s'.queues.size (fun i j => p.values = .queue ⟨i⟩ ∧ p'.values = .queue ⟨j⟩)
    fun h h' => by
      have same := h.1.symm.trans h'.1
      have same' := h.2.symm.trans h'.2
      grind

/-- The buffers of the outputs stand for each other, and what is made from now on. -/
def Pairing.byteSinks (p p' : Ports) (s s' : Streams) : Pairing :=
  .since s.buffers.size s'.buffers.size (fun i j => p.bytes = .buffer ⟨i⟩ ∧ p'.bytes = .buffer ⟨j⟩)
    fun h h' => by
      have same := h.1.symm.trans h'.1
      have same' := h.2.symm.trans h'.2
      grind

namespace Streams.Alike

variable {ρ : Matching} {s s' : Streams} {q q' : QueueId}

/-- Where everything is old, nothing has been added yet. -/
theorem start (held : ρ.held = s ∧ ρ.held' = s')
    (queues : ρ.queues.start = s.queues.size ∧ ρ.queues.start' = s'.queues.size)
    (buffers : ρ.buffers.start = s.buffers.size ∧ ρ.buffers.start' = s'.buffers.size)
    (input : s.input = s'.input) (programs : s.programs = s'.programs) : s.Alike ρ s' := by
  obtain ⟨rfl, rfl⟩ := held
  exact {
    queues := fun k => by
      rw [queues.1, queues.2, Array.getElem?_eq_none (Nat.le_add_right _ _),
        Array.getElem?_eq_none (Nat.le_add_right _ _)]
      exact .none
    outlets := fun i j hij => ⟨.refl _ _, queues.1 ▸ (ρ.queues.below hij).1,
      queues.2 ▸ (ρ.queues.below hij).2⟩
    untaken := fun _ _ _ => ⟨rfl, rfl⟩
    queuesInStep := queues.1 ▸ queues.2 ▸ Pairing.inStep_start _
    buffers := fun k => by
      rw [buffers.1, buffers.2, Array.getElem?_eq_none (Nat.le_add_right _ _),
        Array.getElem?_eq_none (Nat.le_add_right _ _)]
    byteOutlets := fun i j hij => ⟨.refl _ _, buffers.1 ▸ (ρ.buffers.below hij).1,
      buffers.2 ▸ (ρ.buffers.below hij).2⟩
    buffersInStep := buffers.1 ▸ buffers.2 ▸ Pairing.inStep_start _
    standard := .refl _ _
    errors := .refl _ _
    input := input
    programs := programs }

/-! ### What they hold -/

/-- Matched queues are alike. -/
theorem queue (h : s.Alike ρ s') (hq : ρ.Input q q') :
    Option.Rel (Queue.Alike ρ) s.queues[q.index]? s'.queues[q'.index]? := by
  obtain ⟨k, hi, hj⟩ := hq
  rw [hi, hj]
  exact h.queues k

/-- What waits in them is alike. -/
theorem waiting (h : s.Alike ρ s') (hq : ρ.Input q q') : Values ρ (s.waiting q) (s'.waiting q') := by
  have found := h.queue hq
  unfold Streams.waiting
  cases hs : s.queues[q.index]? <;> cases hs' : s'.queues[q'.index]? <;> rw [hs, hs'] at found
  · exact .nil
  · exact nomatch found
  · exact nomatch found
  · cases found with
    | some alike =>
      dsimp only
      rw [alike.taken]
      exact List.forall₂_drop _ alike.values

/-- So is what comes next. -/
theorem next? (h : s.Alike ρ s') (hq : ρ.Input q q') :
    Option.Rel (Value.Alike ρ) (s.next? q) (s'.next? q') := by
  have found := h.queue hq
  unfold Streams.next?
  cases hs : s.queues[q.index]? <;> cases hs' : s'.queues[q'.index]? <;> rw [hs, hs'] at found
  · exact .none
  · exact nomatch found
  · exact nomatch found
  · next queue queue' =>
    cases found with
    | some alike =>
      show Option.Rel _ queue.values[queue.taken]? queue'.values[queue'.taken]?
      rw [alike.taken, ← Array.getElem?_toList, ← Array.getElem?_toList]
      have all := alike.values
      generalize queue'.taken = i
      generalize queue.values.toList = vs at all
      generalize queue'.values.toList = vs' at all
      induction all generalizing i with
      | nil => exact .none
      | cons first _ ih =>
        cases i with
        | zero => exact .some first
        | succ i => exact ih i

/-! ### Changes -/

/-- A change of one queue, which adds the same to it on both sides.  Only new queues are taken from. -/
theorem modifyQueue (h : s.Alike ρ s') {i j : Nat} (hij : ρ.queues.Rel i j)
    {change change' : Queue → Queue} {more more' : List Value} (hmore : Values ρ more more')
    (adds : ∀ q, (change q).values.toList = q.values.toList ++ more)
    (adds' : ∀ q, (change' q).values.toList = q.values.toList ++ more')
    (taken : ∀ q q' : Queue, q.taken = q'.taken → (change q).taken = (change' q').taken)
    (keeps : ρ.queues.old i j →
      (∀ q, (change q).taken = q.taken) ∧ ∀ q, (change' q).taken = q.taken) :
    Streams.Alike ρ { s with queues := s.queues.modify i change }
      { s' with queues := s'.queues.modify j change' } where
  queues k := by
    dsimp only
    rw [Array.getElem?_modify, Array.getElem?_modify]
    have here : i = ρ.queues.start + k ↔ j = ρ.queues.start' + k := hij.unique (.new k)
    have found := h.queues k
    by_cases changed : i = ρ.queues.start + k
    · rw [if_pos changed, if_pos (here.mp changed)]
      cases hs : s.queues[ρ.queues.start + k]? <;> cases hs' : s'.queues[ρ.queues.start' + k]? <;>
        rw [hs, hs'] at found
      · exact .none
      · exact nomatch found
      · exact nomatch found
      · cases found with
        | some alike =>
          refine .some ⟨?_, taken _ _ alike.taken⟩
          rw [adds, adds']
          exact List.rel_append alike.values hmore
    · rw [if_neg changed, if_neg fun changed' => changed (here.mpr changed')]
      exact found
  outlets m n hmn := by
    obtain ⟨added, known, known'⟩ := h.outlets m n hmn
    have here : i = m ↔ j = n := hij.unique (.old hmn)
    refine ⟨?_, by simpa using known, by simpa using known'⟩
    unfold Streams.valuesOf at added ⊢
    dsimp only
    rw [Array.getElem?_modify, Array.getElem?_modify, Array.getElem?_eq_getElem known,
      Array.getElem?_eq_getElem known']
    rw [Array.getElem?_eq_getElem known, Array.getElem?_eq_getElem known'] at added
    by_cases changed : i = m
    · rw [if_pos changed, if_pos (here.mp changed)]
      have := added.append hmore
      simpa only [Option.map_some, Option.getD_some, adds, adds', Option.map_eq_map] using this
    · rw [if_neg changed, if_neg fun changed' => changed (here.mpr changed')]
      exact added
  untaken m n hmn := by
    have here : i = m ↔ j = n := hij.unique (.old hmn)
    obtain ⟨same, same'⟩ := h.untaken m n hmn
    rw [takenOf_modify, takenOf_modify]
    · exact ⟨same, same'⟩
    · rintro rfl
      obtain rfl := here.mpr rfl
      exact (keeps hmn).2
    · rintro rfl
      obtain rfl := here.mp rfl
      exact (keeps hmn).1
  queuesInStep := by
    dsimp only
    rw [Array.size_modify, Array.size_modify]
    exact h.queuesInStep
  buffers := h.buffers
  byteOutlets := h.byteOutlets
  buffersInStep := h.buffersInStep
  standard := h.standard
  errors := h.errors
  input := h.input
  programs := h.programs

/-- A change of one buffer, which adds the same to it on both sides. -/
theorem modifyBuffer (h : s.Alike ρ s') {i j : Nat} (hij : ρ.buffers.Rel i j)
    (bytes : Array UInt8) :
    Streams.Alike ρ { s with buffers := s.buffers.modify i (· ++ bytes) }
      { s' with buffers := s'.buffers.modify j (· ++ bytes) } where
  queues := h.queues
  outlets := h.outlets
  untaken := h.untaken
  queuesInStep := h.queuesInStep
  buffers k := by
    dsimp only
    rw [Array.getElem?_modify, Array.getElem?_modify, h.buffers k]
    have here : i = ρ.buffers.start + k ↔ j = ρ.buffers.start' + k := hij.unique (.new k)
    by_cases changed : i = ρ.buffers.start + k
    · rw [if_pos changed, if_pos (here.mp changed)]
    · rw [if_neg changed, if_neg fun changed' => changed (here.mpr changed')]
  byteOutlets m n hmn := by
    obtain ⟨added, known, known'⟩ := h.byteOutlets m n hmn
    have here : i = m ↔ j = n := hij.unique (.old hmn)
    refine ⟨?_, by simpa using known, by simpa using known'⟩
    unfold Streams.bytesOf at added ⊢
    dsimp only
    rw [Array.getElem?_modify, Array.getElem?_modify, Array.getElem?_eq_getElem known,
      Array.getElem?_eq_getElem known']
    rw [Array.getElem?_eq_getElem known, Array.getElem?_eq_getElem known'] at added
    by_cases changed : i = m
    · rw [if_pos changed, if_pos (here.mp changed)]
      have same : List.Forall₂ Eq bytes.toList bytes.toList := List.forall₂_same.mpr fun _ _ => rfl
      have := added.append same
      simpa only [Option.map_some, Option.getD_some, Option.map_eq_map, Array.toList_append] using this
    · rw [if_neg changed, if_neg fun changed' => changed (here.mpr changed')]
      exact added
  buffersInStep := by
    dsimp only
    rw [Array.size_modify, Array.size_modify]
    exact h.buffersInStep
  standard := h.standard
  errors := h.errors
  input := h.input
  programs := h.programs

/-- The same bytes are written to alike sinks. -/
theorem write (h : s.Alike ρ s') {sink sink' : ByteSink} (hsink : sink.Alike ρ sink')
    (bytes : List UInt8) : (s.write sink bytes).Alike ρ (s'.write sink' bytes) := by
  cases hsink with
  | standard =>
    refine { h with standard := ?_ }
    show Added Eq _ _ (s.standard ++ bytes.toArray).toList (s'.standard ++ bytes.toArray).toList
    rw [Array.toList_append, Array.toList_append]
    exact h.standard.append (List.forall₂_same.mpr fun _ _ => rfl)
  | buffer hb => exact h.modifyBuffer hb bytes.toArray

/-- Alike values are put to alike sinks. -/
theorem put (h : s.Alike ρ s') {sink sink' : ValueSink} (hsink : sink.Alike ρ sink')
    {v v' : Value} (hv : v.Alike ρ v') : (s.put sink v).Alike ρ (s'.put sink' v') := by
  cases hsink with
  | standard =>
    have line : Streams.printedLine v = Streams.printedLine v' := by
      unfold Streams.printedLine
      rw [hv.repr_eq]
    show (s.write .standard _).Alike ρ (s'.write .standard _)
    rw [line]
    exact h.write .standard _
  | queue hq =>
    exact h.modifyQueue hq (.cons hv .nil) (fun q => Array.toList_push) (fun q => Array.toList_push)
      (fun _ _ same => same) fun _ => ⟨fun _ => rfl, fun _ => rfl⟩

/-- A value is taken from matched queues. -/
theorem skip (h : s.Alike ρ s') (hq : ρ.Input q q') : (s.skip q).Alike ρ (s'.skip q') := by
  refine h.modifyQueue hq.rel .nil (fun q => (List.append_nil _).symm)
    (fun q => (List.append_nil _).symm) (fun _ _ same => congrArg (· + 1) same) fun old => ?_
  have isOld := ρ.queues.below old
  have isNew := hq.le
  omega

/-- A program reads the same input, and writes the same errors. -/
theorem pass (h : s.Alike ρ s') (errors input : List UInt8) :
    (s.pass errors input).Alike ρ (s'.pass errors input) := by
  refine { h with errors := ?_, input := rfl, programs := congrArg Programs.rest h.programs }
  show Added Eq _ _ (s.errors ++ errors.toArray).toList (s'.errors ++ errors.toArray).toList
  rw [Array.toList_append, Array.toList_append]
  exact h.errors.append (List.forall₂_same.mpr fun _ _ => rfl)

/-- New queues are matched. -/
theorem newQueue (h : s.Alike ρ s') : ρ.Input (s.newQueue []).1 (s'.newQueue []).1 ∧
    (s.newQueue []).2.Alike ρ (s'.newQueue []).2 := by
  obtain ⟨n, hn, hn'⟩ := h.queuesInStep
  refine ⟨⟨n, hn, hn'⟩, { h with
    queues := fun k => ?_, outlets := fun i j hij => ?_, untaken := fun i j hij => ?_
    queuesInStep := ?_ }⟩
  · show Option.Rel _ (s.queues.push _)[_]? (s'.queues.push _)[_]?
    rw [Array.getElem?_push, Array.getElem?_push]
    have here : ρ.queues.start + k = s.queues.size ↔ ρ.queues.start' + k = s'.queues.size := by
      omega
    by_cases new : ρ.queues.start + k = s.queues.size
    · rw [if_pos new, if_pos (here.mp new)]
      exact .some ⟨.nil, rfl⟩
    · rw [if_neg new, if_neg fun new' => new (here.mpr new')]
      exact h.queues k
  · obtain ⟨added, known, known'⟩ := h.outlets i j hij
    have grown : i < (s.newQueue []).2.queues.size ∧ j < (s'.newQueue []).2.queues.size := by
      show i < (s.queues.push _).size ∧ j < (s'.queues.push _).size
      rw [Array.size_push, Array.size_push]
      omega
    refine ⟨?_, grown⟩
    unfold Streams.valuesOf
    rw [s.queues_newQueue known, s'.queues_newQueue known']
    exact added
  · obtain ⟨-, known, known'⟩ := h.outlets i j hij
    unfold Streams.takenOf
    rw [s.queues_newQueue known, s'.queues_newQueue known']
    exact h.untaken i j hij
  · show ρ.queues.InStep (s.queues.push _).size (s'.queues.push _).size
    rw [Array.size_push, Array.size_push]
    exact h.queuesInStep.succ

/-- And so are new buffers. -/
theorem newBuffer (h : s.Alike ρ s') :
    ρ.buffers.InStep s.newBuffer.1.index s'.newBuffer.1.index ∧
      s.newBuffer.2.Alike ρ s'.newBuffer.2 := by
  obtain ⟨n, hn, hn'⟩ := h.buffersInStep
  refine ⟨⟨n, hn, hn'⟩,
    { h with buffers := fun k => ?_, byteOutlets := fun i j hij => ?_, buffersInStep := ?_ }⟩
  · show (s.buffers.push #[])[_]? = (s'.buffers.push #[])[_]?
    rw [Array.getElem?_push, Array.getElem?_push, h.buffers k]
    have here : ρ.buffers.start + k = s.buffers.size ↔ ρ.buffers.start' + k = s'.buffers.size := by
      omega
    by_cases new : ρ.buffers.start + k = s.buffers.size
    · rw [if_pos new, if_pos (here.mp new)]
    · rw [if_neg new, if_neg fun new' => new (here.mpr new')]
  · obtain ⟨added, known, known'⟩ := h.byteOutlets i j hij
    have grown : i < (s.buffers.push #[]).size ∧ j < (s'.buffers.push #[]).size := by
      rw [Array.size_push, Array.size_push]
      omega
    refine ⟨?_, grown⟩
    have kept : s.newBuffer.2.bytesOf i = s.bytesOf i := by
      show (((s.buffers.push #[])[i]?).map _).getD [] = _
      rw [Array.getElem?_push, if_neg (Nat.ne_of_lt known)]
      rfl
    have kept' : s'.newBuffer.2.bytesOf j = s'.bytesOf j := by
      show (((s'.buffers.push #[])[j]?).map _).getD [] = _
      rw [Array.getElem?_push, if_neg (Nat.ne_of_lt known')]
      rfl
    rw [kept, kept']
    exact added
  · show ρ.buffers.InStep (s.buffers.push #[]).size (s'.buffers.push #[]).size
    rw [Array.size_push, Array.size_push]
    exact h.buffersInStep.succ

/-- What a capture collected. -/
theorem captured (h : s.Alike ρ s') (hq : ρ.Input q q') {b b' : BufferId}
    (hb : ρ.buffers.InStep b.index b'.index) :
    Values ρ (s.captured q b).all (s'.captured q' b').all := by
  have bytes : (s.captured q b).bytes = (s'.captured q' b').bytes := by
    obtain ⟨k, hi, hj⟩ := hb
    unfold Streams.captured
    rw [Array.getD_eq_getD_getElem?, Array.getD_eq_getD_getElem?, hi, hj, h.buffers k]
  unfold Captured.all
  rw [bytes]
  refine List.rel_append (h.waiting hq) ?_
  refine List.forall₂_same.mpr fun v hv => ?_
  obtain ⟨line, -, rfl⟩ := List.mem_map.mp hv
  exact .text _

end Streams.Alike

end ValueShell
