/-
  The closures inside values.

  A closure can be kept anywhere: in a variable, deep inside a list or a map, in the queue between two
  stages of a pipeline.  `Value.Carries P` says that every closure inside a value satisfies `P`.

  No operation on values makes a closure.  So what is taken out of a value, or put together from
  values, carries what those carried.  A JSON document carries none at all: it refers to nothing
  (`Value.Closed`).
-/
import ValueShell.Json.Document
import ValueShell.Value.Path
import ValueShell.World.Streams

/-- What a sequence of two steps that may fail gave. -/
theorem Except.of_bind_ok {ε α β : Type} {x : Except ε α} {k : α → Except ε β} {b : β}
    (h : (x >>= k) = .ok b) : ∃ a, x = .ok a ∧ k a = .ok b := by
  cases x with
  | error e => exact nomatch h
  | ok a => exact ⟨a, rfl, h⟩

namespace ValueShell

/-- **Every closure inside the value** satisfies `P`. -/
inductive Value.Carries (P : Closure → Prop) : Value → Prop
  | text {s : String} : Value.Carries P (.text s)
  | number {n : Float} : Value.Carries P (.number n)
  | bool {b : Bool} : Value.Carries P (.bool b)
  | list {items : List Value} (all : ∀ v ∈ items, Value.Carries P v) :
      Value.Carries P (.list items)
  | map {entries : List (String × Value)} (all : ∀ e ∈ entries, Value.Carries P e.2) :
      Value.Carries P (.map entries)
  | closure {c : Closure} (h : P c) : Value.Carries P (.function (.closure c))
  | builtin {b : Builtin} : Value.Carries P (.function (.builtin b))
  | external {name : String} : Value.Carries P (.function (.external name))
  | ns {scope : ScopeId} : Value.Carries P (.ns scope)
  | exception {id : Nat} {e : Exception} : Value.Carries P (.exception id e)

namespace Value

variable {P Q : Closure → Prop}

/-- Less may be said of the closures, by induction on the value. -/
theorem Carries.mono (h : ∀ c, P c → Q c) : ∀ {v : Value}, v.Carries P → v.Carries Q
  | _, .text => .text
  | _, .number => .number
  | _, .bool => .bool
  | _, .list all => .list fun v hv => (all v hv).mono h
  | _, .map all => .map fun e he => (all e he).mono h
  | _, .closure hc => .closure (h _ hc)
  | _, .builtin => .builtin
  | _, .external => .external
  | _, .ns => .ns
  | _, .exception => .exception

/-- A predicate that holds of every closure. -/
theorem carries_all (h : ∀ c, P c) : ∀ v : Value, v.Carries P
  | .text _ => .text
  | .number _ => .number
  | .bool _ => .bool
  | .list _ => .list fun v _ => carries_all h v
  | .map _ => .map fun (_, v) _ => carries_all h v
  | .function (.closure c) => .closure (h c)
  | .function (.builtin _) => .builtin
  | .function (.external _) => .external
  | .ns _ => .ns
  | .exception _ _ => .exception
decreasing_by
  · decreasing_tactic
  · next found =>
    have smaller := List.sizeOf_lt_of_mem found
    simp only [Prod.mk.sizeOf_spec, Value.map.sizeOf_spec] at smaller ⊢
    omega

/-! ## Elements -/

/-- The elements of a value carry what it carries. -/
theorem Carries.elements {v : Value} {vs : List Value} (hv : v.Carries P)
    (h : v.elements = .ok vs) : ∀ x ∈ vs, x.Carries P := by
  cases hv with
  | list all =>
    cases h
    exact all
  | map _ =>
    cases h
    intro x hx
    obtain ⟨e, -, rfl⟩ := List.mem_map.mp hx
    exact .text
  | text =>
    cases h
    intro x hx
    obtain ⟨c, -, rfl⟩ := List.mem_map.mp hx
    exact .text
  | _ => exact nomatch h

/-- So does each of them. -/
theorem Carries.index {v key found : Value} (hv : v.Carries P) (h : v.index key = .ok found) :
    found.Carries P := by
  cases hv with
  | @list items all =>
    obtain ⟨i, -, hi⟩ := Except.of_bind_ok h
    cases hi
    rw [List.getD_eq_getElem?_getD]
    cases hx : items[i]? with
    | none => exact .text
    | some x => exact all x (List.mem_of_getElem? hx)
  | @map entries all =>
    obtain ⟨k, -, hk⟩ := Except.of_bind_ok h
    cases hx : Table.find? entries k with
    | none => rw [hx] at hk; exact nomatch hk
    | some x =>
      rw [hx] at hk
      cases hk
      exact all _ (Table.mem_of_find? hx)
  | text =>
    obtain ⟨i, -, hi⟩ := Except.of_bind_ok h
    cases hi
    exact .text
  | _ => exact nomatch h

/-- A value with an element replaced carries what it and the new element did. -/
theorem Carries.assoc {v key new whole : Value} (hv : v.Carries P) (hn : new.Carries P)
    (h : v.assoc key new = .ok whole) : whole.Carries P := by
  cases hv with
  | list all =>
    obtain ⟨i, -, hi⟩ := Except.of_bind_ok h
    cases hi
    refine .list fun x hx => ?_
    rcases List.mem_or_eq_of_mem_set hx with hx | rfl
    · exact all x hx
    · exact hn
  | map all =>
    obtain ⟨k, -, hk⟩ := Except.of_bind_ok h
    cases hk
    refine .map fun e he => ?_
    rcases Table.mem_insert he with rfl | he
    · exact hn
    · exact all e he
  | _ => exact nomatch h

/-- With one removed, it carries no more. -/
theorem Carries.dissoc {v key whole : Value} (hv : v.Carries P)
    (h : v.dissoc key = .ok whole) : whole.Carries P := by
  cases hv with
  | map all =>
    obtain ⟨k, -, hk⟩ := Except.of_bind_ok h
    cases hk
    exact .map fun e he => all e (Table.mem_of_mem_erase he)
  | _ => exact nomatch h

/-! ## Paths -/

/-- What a blamed operation gave, the operation gave. -/
theorem blame_ok {α : Type} {level : Nat} {r : Except Fault α} {a : α}
    (h : blame level r = .ok a) : r = .ok a := by
  cases r with
  | error e => exact nomatch h
  | ok b =>
    cases h
    rfl

/-- The steps of going one index down and coming back up. -/
theorem down_ok {level : Nat} {v key whole : Value} {inner : Value → Except ElementError Value}
    (h : (do
      let child ← blame level (v.index key)
      let child ← inner child
      blame level (v.assoc key child)) = .ok whole) :
    ∃ child child', v.index key = .ok child ∧ inner child = .ok child' ∧
      v.assoc key child' = .ok whole := by
  obtain ⟨child, hx, h⟩ := Except.of_bind_ok h
  obtain ⟨child', hn, h⟩ := Except.of_bind_ok h
  exact ⟨child, child', blame_ok hx, hn, blame_ok h⟩

/-- The same along a path, by induction on it. -/
theorem Carries.setPathFrom {new : Value} (hn : new.Carries P) :
    ∀ (path : List Value) {level : Nat} {v whole : Value}, v.Carries P →
      Value.setPathFrom level v new path = .ok whole → whole.Carries P
  | [], _, _, _, _, h => by
    cases h
    exact hn
  | [_], _, _, _, hv, h => hv.assoc hn (blame_ok h)
  | _ :: second :: rest, _, _, _, hv, h => by
    obtain ⟨child, child', hx, hc, ha⟩ := down_ok h
    exact hv.assoc ((hn.setPathFrom (second :: rest) (hv.index hx) hc)) ha

theorem Carries.setPath {v new whole : Value} {path : List Value} (hv : v.Carries P)
    (hn : new.Carries P) (h : v.setPath path new = .ok whole) : whole.Carries P :=
  hn.setPathFrom path hv h

/-- And for removing along a path. -/
theorem Carries.removePathFrom :
    ∀ (path : List Value) {level : Nat} {v whole : Value}, v.Carries P →
      Value.removePathFrom level v path = .ok whole → whole.Carries P
  | [], _, _, _, hv, h => by
    cases h
    exact hv
  | [_], _, _, _, hv, h => hv.dissoc (blame_ok h)
  | _ :: second :: rest, _, _, _, hv, h => by
    obtain ⟨child, child', hx, hc, ha⟩ := down_ok h
    exact hv.assoc (Carries.removePathFrom (second :: rest) (hv.index hx) hc) ha

theorem Carries.removePath {v whole : Value} {path : List Value} (hv : v.Carries P)
    (h : v.removePath path = .ok whole) : whole.Carries P :=
  Carries.removePathFrom path hv h

end Value

/-! ## Documents -/

/-- **A value that refers to nothing**: a text, a number, a truth value, or a list or a map of such. -/
inductive Value.Closed : Value → Prop
  | text {s : String} : Value.Closed (.text s)
  | number {n : Float} : Value.Closed (.number n)
  | bool {b : Bool} : Value.Closed (.bool b)
  | list {items : List Value} (all : ∀ v ∈ items, Value.Closed v) : Value.Closed (.list items)
  | map {entries : List (String × Value)} (all : ∀ e ∈ entries, Value.Closed e.2) :
      Value.Closed (.map entries)

/-- What refers to nothing carries anything. -/
theorem Value.Closed.carries {P : Closure → Prop} {v : Value} (h : v.Closed) : v.Carries P := by
  induction h with
  | text => exact .text
  | number => exact .number
  | bool => exact .bool
  | list _ ih => exact .list ih
  | map _ ih => exact .map ih

namespace TextReader

variable {ε α β : Type} {P : α → Prop} {Q : β → Prop}

/-- What the reader gives, if it gives anything, satisfies `P`. -/
def Yields (P : α → Prop) (reader : TextReader ε α) : Prop :=
  ∀ c a c', reader c = .ok (a, c') → P a

/-- What is returned has the property. -/
theorem yields_pure {a : α} (h : P a) : Yields P (pure a : TextReader ε α) := by
  intro c b c' hr
  cases hr
  exact h

/-- A reader that fails yields nothing. -/
theorem yields_throw {stop : ReadStop ε} : Yields P (throw stop : TextReader ε α) :=
  fun _ _ _ hr => nomatch hr

/-- One reader after the other. -/
theorem yields_bind {x : TextReader ε β} {k : β → TextReader ε α} (hx : Yields Q x)
    (hk : ∀ b, Q b → Yields P (k b)) : Yields P (x >>= k) := by
  intro c a c' h
  change (x c).bind _ = _ at h
  cases hr : x c with
  | error e => rw [hr] at h; exact nomatch h
  | ok found =>
    rw [hr] at h
    exact hk found.1 (hx _ _ _ hr) _ _ _ h

/-- Whatever the first reader gives. -/
theorem yields_then {x : TextReader ε β} {k : β → TextReader ε α} (hk : ∀ b, Yields P (k b)) :
    Yields P (x >>= k) :=
  yields_bind (Q := fun _ => True) (fun _ _ _ _ => trivial) fun b _ => hk b

/-- What a round adds satisfies `P`. -/
def Round.Adds (P : α → Prop) : Round α → Prop
  | .stop => True
  | .last item | .more item => P item

/-- A repetition yields a list, if each round adds an item. -/
theorem yields_repeatedOnto {round : TextReader ε (Round α)} (h : Yields (Round.Adds P) round)
    (limit : Nat) {items : List α} (hi : ∀ a ∈ items, P a) :
    Yields (fun found => ∀ a ∈ found, P a) (repeatedOnto round limit items) := by
  induction limit generalizing items with
  | zero => exact yields_throw
  | succ limit ih =>
    refine yields_bind h fun r hr => ?_
    cases r with
    | stop => exact yields_pure fun a ha => hi a (List.mem_reverse.mp ha)
    | last item =>
      refine yields_pure fun a ha => ?_
      rcases List.mem_cons.mp (List.mem_reverse.mp ha) with rfl | ha
      · exact hr
      · exact hi a ha
    | more item =>
      refine ih fun a ha => ?_
      rcases List.mem_cons.mp ha with rfl | ha
      · exact hr
      · exact hi a ha

theorem yields_repeated {round : TextReader ε (Round α)} (h : Yields (Round.Adds P) round)
    (limit : Nat) : Yields (fun found => ∀ a ∈ found, P a) (repeated limit round) :=
  yields_repeatedOnto h limit nofun

end TextReader

namespace JsonReader

open TextReader

variable {item : JsonReader Value}

theorem yields_failNext {α : Type} {P : α → Prop} {problem : JsonProblem} :
    Yields P (failNext problem) :=
  yields_then fun _ => yields_throw

/-- The items of a JSON list are closed. -/
theorem yields_listItems (limit : Nat) (h : Yields Value.Closed item) :
    Yields (fun vs => ∀ v ∈ vs, v.Closed) (listItems limit item) := by
  refine yields_then fun _ => yields_then fun next => ?_
  split
  · exact yields_failNext
  · exact yields_then fun _ => yields_pure nofun
  · refine yields_bind h fun first hf =>
      yields_bind (yields_repeated (P := Value.Closed) ?_ limit) fun more hm => ?_
    · refine yields_then fun _ => yields_then fun next => ?_
      split
      · exact yields_failNext
      · exact yields_then fun _ => yields_pure trivial
      · refine yields_then fun _ => yields_then fun _ => yields_then fun next => ?_
        split
        · exact yields_failNext
        · exact yields_failNext
        · exact yields_bind h fun v hv => yields_pure hv
      · exact yields_failNext
    · refine yields_pure fun v hv => ?_
      rcases List.mem_cons.mp hv with rfl | hv
      · exact hf
      · exact hm v hv

/-- So is the value of an entry. -/
theorem yields_entry (limit : Nat) (h : Yields Value.Closed item) :
    Yields (fun e => e.2.Closed) (entry limit item) := by
  refine yields_then fun _ => yields_then fun _ => yields_then fun next => ?_
  split
  · exact yields_failNext
  · exact yields_then fun _ => yields_bind h fun v hv => yields_pure hv
  · exact yields_failNext

theorem yields_objectEntries (limit : Nat) (h : Yields Value.Closed item) :
    Yields (fun es => ∀ e ∈ es, e.2.Closed) (objectEntries limit item) := by
  have one : Yields (fun e : String × Value => e.2.Closed) (entry limit item) :=
    yields_entry limit h
  refine yields_then fun _ => yields_then fun next => ?_
  split
  · exact yields_failNext
  · exact yields_then fun _ => yields_pure nofun
  · refine yields_bind one fun first hf =>
      yields_bind (yields_repeated (P := fun e => e.2.Closed) ?_ limit) fun more hm => ?_
    · refine yields_then fun _ => yields_then fun next => ?_
      split
      · exact yields_failNext
      · exact yields_then fun _ => yields_pure trivial
      · refine yields_then fun _ => yields_then fun _ => yields_then fun next => ?_
        split
        · exact yields_failNext
        · exact yields_failNext
        · exact yields_bind one fun e he => yields_pure he
        · exact yields_failNext
      · exact yields_failNext
    · refine yields_pure fun e he => ?_
      rcases List.mem_cons.mp he with rfl | he
      · exact hf
      · exact hm e he
  · exact yields_failNext

/-- A JSON value is closed if those inside are. -/
theorem yields_valueWith (limit : Nat) (nested : Option (JsonReader Value))
    (h : ∀ item ∈ nested, Yields Value.Closed item) :
    Yields (Value.Closed) (valueWith limit nested) := by
  refine yields_then fun _ => yields_then fun next => ?_
  split
  · exact yields_failNext
  · exact yields_then fun _ => yields_pure .text
  · exact yields_then fun _ => yields_pure .bool
  · exact yields_then fun _ => yields_pure .bool
  · exact yields_then fun _ => yields_then fun _ => yields_pure .text
  · exact yields_then fun _ => yields_pure .text
  · split
    · exact yields_failNext
    · next item =>
      exact yields_then fun _ => yields_bind (yields_listItems limit (h item rfl)) fun vs hvs =>
        yields_pure (.list hvs)
  · split
    · exact yields_failNext
    · next item =>
      refine yields_then fun _ => yields_bind (yields_objectEntries limit (h item rfl))
        fun es hes => yields_pure (.map fun e he => hes e ?_)
      exact (Table.mem_overlay he).resolve_left nofun
  · split
    · exact yields_then fun _ => yields_pure .text
    · exact yields_failNext

/-- **A JSON value refers to nothing**, at any depth. -/
theorem yields_value (limit depth : Nat) : Yields (Value.Closed) (value limit depth) := by
  induction depth with
  | zero => exact yields_valueWith limit none nofun
  | succ depth ih =>
    refine yields_valueWith limit _ fun item hi => ?_
    cases hi
    exact ih

/-- Nor does a document. -/
theorem yields_document? (limit : Nat) :
    Yields (fun found => ∀ v ∈ found, Value.Closed v) (document? limit) := by
  refine yields_then fun _ => yields_then fun next => ?_
  split
  · exact yields_pure fun _ none => absurd none (Option.not_mem_none _)
  · refine yields_bind (yields_value limit depthLimit) fun v hv => ?_
    have found : ∀ x ∈ some v, Value.Closed x := fun x hx => by
      cases hx
      exact hv
    split
    · refine yields_then fun next => ?_
      split
      · exact yields_pure found
      · split
        · exact yields_pure found
        · exact yields_failNext
    · exact yields_pure found

/-- Nor do the documents of a text, read up to the first problem. -/
theorem documentsFrom_closed (limit turns : Nat) (cursor : Cursor) :
    ∀ v ∈ (documentsFrom limit turns cursor).1, Value.Closed v := by
  induction turns generalizing cursor with
  | zero => exact nofun
  | succ turns ih =>
    unfold documentsFrom
    split
    · exact nofun
    · exact nofun
    · next v after hr =>
      intro x hx
      rcases List.mem_cons.mp hx with rfl | hx
      · exact yields_document? limit _ _ _ hr x rfl
      · exact ih after x hx

end JsonReader

/-- A document refers to nothing. -/
theorem readJson_closed (text : List Char) : ∀ v ∈ (readJson text).1, v.Closed :=
  JsonReader.documentsFrom_closed _ _ _

/-- In particular it carries no closures. -/
theorem readJson_carries {P : Closure → Prop} (text : List Char) :
    ∀ v ∈ (readJson text).1, Value.Carries P v := fun v hv => (readJson_closed text v hv).carries

/-! ## Queues -/

namespace Streams

/-- Every closure in the queues satisfies `P`. -/
def Carries (P : Closure → Prop) (s : Streams) : Prop :=
  ∀ (i : Nat) (q : Queue), s.queues[i]? = some q → ∀ v ∈ q.values.toList, v.Carries P

variable {P Q : Closure → Prop} {s : Streams}

/-- Less may be said of what the queues carry. -/
theorem Carries.mono (h : ∀ c, P c → Q c) (hs : s.Carries P) : s.Carries Q :=
  fun i q hq v hv => (hs i q hq v hv).mono h

/-- A change of one queue only matters there. -/
theorem carries_modify (hs : s.Carries P) (i : Nat) {change : Queue → Queue}
    (h : ∀ q, (∀ v ∈ q.values.toList, v.Carries P) → ∀ v ∈ (change q).values.toList, v.Carries P) :
    Streams.Carries P { s with queues := s.queues.modify i change } := by
  intro j q hq
  rw [Array.getElem?_modify] at hq
  split at hq
  · cases hold : s.queues[j]? with
    | none => rw [hold] at hq; exact nomatch hq
    | some old =>
      rw [hold] at hq
      cases hq
      exact h old (hs j old hold)
  · exact hs j q hq

/-- A new queue carries what its values do. -/
theorem carries_newQueue (hs : s.Carries P) {vs : List Value} (hv : ∀ v ∈ vs, v.Carries P) :
    (s.newQueue vs).2.Carries P := by
  intro i q hq
  change (s.queues.push _)[i]? = _ at hq
  rw [Array.getElem?_push] at hq
  split at hq
  · cases hq
    exact hv
  · exact hs i q hq

theorem carries_write (hs : s.Carries P) (sink : ByteSink) (bytes : List UInt8) :
    (s.write sink bytes).Carries P := by
  cases sink <;> exact hs

/-- A value that is put in carries what it does. -/
theorem carries_put (hs : s.Carries P) (sink : ValueSink) {v : Value} (hv : v.Carries P) :
    (s.put sink v).Carries P := by
  cases sink with
  | standard => exact hs
  | queue q =>
    refine carries_modify hs q.index fun queue hold x hx => ?_
    rcases List.mem_append.mp (Array.toList_push ▸ hx) with hx | hx
    · exact hold x hx
    · cases List.mem_singleton.mp hx
      exact hv

theorem carries_skip (hs : s.Carries P) (q : QueueId) : (s.skip q).Carries P :=
  carries_modify hs q.index fun _ hold => hold

theorem carries_waiting (hs : s.Carries P) (q : QueueId) : ∀ v ∈ s.waiting q, v.Carries P := by
  intro v hv
  unfold waiting at hv
  split at hv
  · next queue hq => exact hs _ queue hq v (List.mem_of_mem_drop hv)
  · exact nomatch hv

/-- And so does the next value of a queue. -/
theorem carries_next? (hs : s.Carries P) {q : QueueId} {v : Value} (h : s.next? q = some v) :
    v.Carries P := by
  unfold next? at h
  cases hq : s.queues[q.index]? with
  | none => rw [hq] at h; exact nomatch h
  | some queue =>
    rw [hq] at h
    exact hs _ queue hq v (Array.mem_toList_iff.mpr (Array.mem_of_getElem? h))

/-- A capture has the values of its queue and the lines of its bytes. -/
theorem carries_captured (hs : s.Carries P) (q : QueueId) (b : BufferId) :
    ∀ v ∈ (s.captured q b).all, v.Carries P := by
  intro v hv
  rcases List.mem_append.mp hv with hv | hv
  · exact carries_waiting hs q v hv
  · obtain ⟨line, -, rfl⟩ := List.mem_map.mp hv
    exact .text

end Streams

end ValueShell
