/-
  What running code can do to the world.

  Evaluation is one large recursion, and most of what one wants to know about the world afterwards has
  nothing to do with which code ran: scopes of others keep their entries, cells keep their constraints,
  every module that is being loaded is still being loaded when the code is done.  This file says once
  what a run can do, as a relation between the world before and the world after, so that each such
  fact is an induction over that relation and not over the evaluator.

    * `Change` is one change: a fresh cell, an assignment, a name bound in the HOME scope, …
    * `Evolves` closes it under sequence, calls (a fresh home) and loads of modules (a fresh home and
      an entry in the cache, which is settled when the load ends);
    * `Stays` says of a computation that it only evolves the world, whatever its outcome.

  The rules for `Stays` below follow the combinators the evaluator is written with.
-/
import ValueShell.Eval.Run

namespace ValueShell

/-! ## How an evaluation ends -/

/-- Whether whoever runs an evaluation gets to go on. -/
inductive Ending
  /-- with a result, an exception or a signal -/
  | settled
  /-- the program ended, or the bound on nested evaluations was reached -/
  | cut
  /-- waiting for another stage -/
  | stuck
deriving DecidableEq, Repr

/-- The ending of a reason to stop. -/
def Stop.ending : Stop → Ending
  | .unwind _ => .settled
  | .exit _ | .outOfFuel => .cut
  | .blocked => .stuck

/-- The ending of an outcome. -/
def Ending.of {α : Type} : Except Stop α → Ending
  | .ok _ => .settled
  | .error stop => stop.ending

namespace World

/-- The world in which the load of the module at a path begins: its namespace is there, and its entry
says that it is being loaded. -/
def beginLoad (w : World) (path : String) : World :=
  { w with
    store := (w.store.newScope []).2
    modules := Table.insert w.modules path (.loading ⟨w.store.scopes.size⟩ []) }

/-- The world in which that load has ended well. -/
def finishLoad (w : World) (path : String) (ns : ScopeId) : World :=
  { w with modules := Table.insert w.modules path (.loaded ns) }.note (.loaded path)

/-- The world in which that load has failed. -/
def abandonLoad (w : World) (path : String) : World :=
  { w with modules := Table.erase w.modules path }.note (.failed path)

end World

/-! ## The relation -/

/-- **One change** that code makes whose local scope is `home`, and which runs inside the loads of the
modules `loading`. -/
inductive Change (home : Option ScopeId) (loading : List String) (w : World) : World → Prop
  /-- output and input, the environment and the files -/
  | surroundings (streams : Streams) (environment : Environment) (files : FileTree) :
      Change home loading w { w with streams, environment, files }
  | raise (f : Fault) : Change home loading w (w.note (.raised f))
  /-- the code of the innermost module starts -/
  | enter {path : String} (code : Operation) (h : path ∈ loading) :
      Change home loading w (w.note (.running path code))
  /-- an import takes the namespace that the cache has for a module -/
  | imports {path : String} {ns : ScopeId} (h : w.modules.namespaceOf? path = some ns) :
      Change home loading w (w.note (.imported path ns))
  | newCell (c : Cell) : Change home loading w { w with store := (w.store.newCell c).2 }
  /-- a new scope names nothing that no other scope names -/
  | newScope (entries : Table CellId) (known : ∀ e ∈ entries, ∃ scope, e ∈ w.store.scope scope) :
      Change home loading w { w with store := (w.store.newScope entries).2 }
  | newIdentity : Change home loading w { w with store := w.store.newIdentity.2 }
  /-- a cell is changed by assigning to it, and in no other way -/
  | assign {c : CellId} {cell cell' : Cell} {v : Value} (hc : w.store.cell? c = some cell)
      (hv : cell.assign v = .ok cell') :
      Change home loading w { w with store := w.store.setCell c cell' }
  | bind {scope : ScopeId} (h : home = some scope) (name : String) {c : CellId}
      (known : (w.store.cell? c).isSome) :
      Change home loading w { w with store := w.store.bind scope name c }
  | unbind {scope : ScopeId} (h : home = some scope) (name : String) :
      Change home loading w { w with store := w.store.unbind scope name }

/-- **What a run can do to the world**, by how it ends. -/
inductive Evolves : Ending → Option ScopeId → List String → World → World → Prop
  | refl {home : Option ScopeId} {loading : List String} (w : World) :
      Evolves .settled home loading w w
  | change {home : Option ScopeId} {loading : List String} {w w' : World}
      (h : Change home loading w w') : Evolves .settled home loading w w'
  | trans {e : Ending} {home : Option ScopeId} {loading : List String} {w w' w'' : World}
      (first : Evolves .settled home loading w w') (later : Evolves e home loading w' w'') :
      Evolves e home loading w w''
  | cut {home : Option ScopeId} {loading : List String} (w : World) :
      Evolves .cut home loading w w
  /-- an import waits for a load that it is no part of -/
  | stuck {home : Option ScopeId} {loading : List String} {w : World} {path : String}
      {ns : ScopeId} {waiting : List String}
      (h : Table.find? w.modules path = some (.loading ns waiting)) (out : path ∉ loading) :
      Evolves .stuck home loading w w
  /-- a call, which has a local scope of its own -/
  | inside {e : Ending} {home : Option ScopeId} {loading : List String} {w w' : World}
      (h : Evolves e (some ⟨w.store.scopes.size⟩) loading
        { w with store := (w.store.newScope []).2 } w') :
      Evolves e home loading w w'
  | loaded {home : Option ScopeId} {loading : List String} {w w' : World} {path : String}
      (new : Table.find? w.modules path = none)
      (h : Evolves .settled (some ⟨w.store.scopes.size⟩) (loading ++ [path]) (w.beginLoad path) w') :
      Evolves .settled home loading w (w'.finishLoad path ⟨w.store.scopes.size⟩)
  | failed {home : Option ScopeId} {loading : List String} {w w' : World} {path : String}
      (new : Table.find? w.modules path = none)
      (h : Evolves .settled (some ⟨w.store.scopes.size⟩) (loading ++ [path]) (w.beginLoad path) w') :
      Evolves .settled home loading w (w'.abandonLoad path)
  /-- nothing settles a load that is cut off -/
  | unsettled {e : Ending} {home : Option ScopeId} {loading : List String} {w w' : World}
      {path : String} (he : e ≠ .settled) (new : Table.find? w.modules path = none)
      (h : Evolves e (some ⟨w.store.scopes.size⟩) (loading ++ [path]) (w.beginLoad path) w') :
      Evolves e home loading w w'

/-- Putting a cell back as it is changes nothing. -/
theorem Store.setCell_self {s : Store} {c : CellId} {cell : Cell} (h : s.cell? c = some cell) :
    s.setCell c cell = s := by
  obtain ⟨cells, scopes, next⟩ := s
  have hcells : cells.setIfInBounds c.index cell = cells := by
    refine Array.ext (by simp) fun i h₁ h₂ => ?_
    rw [Array.getElem_setIfInBounds h₂]
    split
    · next hi =>
      subst hi
      exact Option.some.inj (h.symm.trans (Array.getElem?_eq_getElem h₂))
    · rfl
  show Store.mk (cells.setIfInBounds c.index cell) scopes next = _
  rw [hcells]

namespace Eval

/-- **A computation that only evolves the world**, whatever its outcome. -/
def Stays {α : Type} (home : Option ScopeId) (loading : List String) (x : Eval α) : Prop :=
  ∀ w, Evolves (.of (x w).1) home loading w (x w).2

/-! ## How computations run -/

section Running

variable {α β : Type}

/-- How two computations run after one another. -/
theorem bind_run (x : Eval α) (k : α → Eval β) (w : World) :
    (x >>= k) w =
      match x w with
      | (.ok a, w') => k a w'
      | (.error stop, w') => (.error stop, w') := by
  change (ExceptT.bindCont k (x w).1) (x w).2 = _
  rcases x w with ⟨_ | _, _⟩ <;> rfl

/-- A sequence whose first part has a result goes on with that result. -/
theorem bind_run_ok {x : Eval α} {k : α → Eval β} {w w' : World} {a : α} (h : x w = (.ok a, w')) :
    (x >>= k) w = k a w' := by rw [bind_run, h]

/-- To look at the world first leaves it as it is. -/
theorem get_bind_run (k : World → Eval β) (w : World) : (get >>= k) w = k w w := rfl

theorem startProgram_run (path : String) (words : List String) (w : World) :
    startProgram path words w =
      let ended := Command.start w.streams.programs w.environment w.files path words w.streams.input
      (.ok ended, w.afterProgram ended) := rfl

theorem ofExcept_ok (a : α) : ofExcept (.ok a) = (pure a : Eval α) := rfl

/-- A change of the failure leaves the world as it is. -/
theorem mapStop_run (change : Stop → Stop) (x : Eval α) (w : World) :
    x.mapStop change w = (((x w).1).mapError change, (x w).2) := by
  unfold mapStop
  rcases x w with ⟨_ | _, _⟩ <;> rfl

/-- What ends well needs no place. -/
theorem located_run_ok {site : Site} {x : Eval α} {w w' : World} {a : α}
    (h : x w = (.ok a, w')) : located site x w = (.ok a, w') := by
  rw [located, mapStop_run, h]
  rfl

/-- And it ended well without one. -/
theorem run_ok_of_located {site : Site} {x : Eval α} {w w' : World} {a : α}
    (h : located site x w = (.ok a, w')) : x w = (.ok a, w') := by
  rw [located, mapStop_run] at h
  rcases hx : x w with ⟨stop | b, w₁⟩ <;> rw [hx] at h
  · exact nomatch h
  · exact h

/-- How a closure is made: what is visible is captured in a scope of its own. -/
theorem close_run (f : Frame) (lambda : Lambda) (isFunction : Bool) (w : World) :
    close f lambda isFunction w =
      (.ok (.closure ⟨w.store.nextIdentity, lambda, ⟨w.store.scopes.size⟩, f.source, isFunction⟩),
        { w with store := (w.store.overlay f.upScope f.localScope).2.newIdentity.2 }) := rfl

end Running

/-! ## Rules -/

section Rules

variable {α β : Type} {home : Option ScopeId} {loading : List String}

/-- Nothing changes. -/
theorem stays_pure (a : α) : Stays home loading (pure a) := fun w => .refl w

/-- **One computation after the other**: what the first has done is done, however the second ends. -/
theorem stays_bind {x : Eval α} {k : α → Eval β} (hx : Stays home loading x)
    (hk : ∀ a, Stays home loading (k a)) : Stays home loading (x >>= k) := by
  intro w
  have first := hx w
  rw [bind_run]
  rcases hr : x w with ⟨stop | a, w'⟩ <;> rw [hr] at first
  · exact first
  · exact .trans first (hk a w')

/-- Looking at the world changes nothing. -/
theorem stays_get {k : World → Eval β} (hk : ∀ w, Stays home loading (k w)) :
    Stays home loading (get >>= k) := fun w => hk w w

/-- What is on its way up changes nothing. -/
theorem stays_unwind (u : Unwind) : Stays home loading (throw (.unwind u) : Eval α) :=
  fun w => .refl w

/-- What ends everything may do so in the middle of a load. -/
theorem stays_cut {stop : Stop} (h : stop.ending = .cut) :
    Stays home loading (throw stop : Eval α) := by
  intro w
  show Evolves stop.ending home loading w w
  rw [h]
  exact .cut w

/-- An event in the journal has to be an allowed change. -/
theorem stays_note (e : Event) (h : ∀ w, Change home loading w (w.note e)) :
    Stays home loading (note e) := fun w => .change (h w)

theorem stays_fault (f : Fault) : Stays home loading (fault f : Eval α) :=
  stays_bind (stays_note _ fun _ => .raise f) fun _ => stays_unwind _

theorem stays_ofExcept (r : Except Fault α) : Stays home loading (ofExcept r) := by
  cases r with
  | ok a => exact stays_pure a
  | error f => exact stays_fault f

/-- A change of the reason why something stopped keeps the ending. -/
theorem stays_mapStop {x : Eval α} {change : Stop → Stop} (h : ∀ s, (change s).ending = s.ending)
    (hx : Stays home loading x) : Stays home loading (x.mapStop change) := by
  intro w
  have first := hx w
  rw [mapStop_run]
  rcases hr : x w with ⟨stop | a, w'⟩
  · rw [hr] at first
    show Evolves (change stop).ending home loading w w'
    rw [h]
    exact first
  · rw [hr] at first
    exact first

/-- Failures are given a place, and nothing else happens. -/
theorem stays_located {x : Eval α} (site : Site) (hx : Stays home loading x) :
    Stays home loading (x.located site) :=
  stays_mapStop (fun s => by cases s <;> rfl) hx

theorem stays_enclosed {x : Eval α} (site : Site) (hx : Stays home loading x) :
    Stays home loading (x.enclosed site) :=
  stays_mapStop (fun s => by cases s <;> rfl) hx

/-- To settle changes an outcome, and no world. -/
theorem stays_settle {x : Eval α} (hx : Stays home loading x) : Stays home loading (settle x) := by
  intro w
  have first := hx w
  unfold settle
  rcases hr : x w with ⟨stop | a, w'⟩ <;> rw [hr] at first
  · cases stop <;> exact first
  · exact first

theorem stays_resume (r : Except Unwind α) : Stays home loading (resume r) := by
  cases r with
  | ok a => exact stays_pure a
  | error u => exact stays_unwind u

theorem stays_loopBody {x : Eval Unit} (hx : Stays home loading x) :
    Stays home loading (loopBody x) := by
  refine stays_bind (stays_settle hx) fun outcome => ?_
  split
  · exact stays_pure _
  · exact stays_pure _
  · exact stays_pure _
  · exact stays_unwind _

theorem stays_returning {x : Eval Unit} (hx : Stays home loading x) :
    Stays home loading (returning x) := by
  refine stays_bind (stays_settle hx) fun outcome => ?_
  split
  · exact stays_pure _
  · exact stays_resume _

/-- A step taken as often as it says, over the items of a list. -/
theorem stays_forEach {step : α → Eval Bool} (h : ∀ a, Stays home loading (step a))
    (items : List α) : Stays home loading (forEach step items) := by
  induction items with
  | nil => exact stays_pure _
  | cons item rest ih =>
    refine stays_bind (h item) fun goesOn => ?_
    split
    · exact ih
    · exact stays_pure _

/-- Steps one after the other. -/
theorem stays_forM {step : α → Eval Unit} (h : ∀ a, Stays home loading (step a))
    (items : List α) : Stays home loading (items.forM step) := by
  induction items with
  | nil => exact stays_pure _
  | cons item rest ih => exact stays_bind (h item) fun _ => ih

theorem stays_mapM {step : α → Eval β} (h : ∀ a, Stays home loading (step a))
    (items : List α) : Stays home loading (items.mapM step) := by
  induction items with
  | nil => exact stays_pure _
  | cons item rest ih =>
    rw [List.mapM_cons]
    exact stays_bind (h item) fun _ => stays_bind ih fun _ => stays_pure _

theorem stays_foldlM {step : β → α → Eval β} (h : ∀ b a, Stays home loading (step b a))
    (items : List α) (b : β) : Stays home loading (items.foldlM step b) := by
  induction items generalizing b with
  | nil => exact stays_pure _
  | cons item rest ih =>
    rw [List.foldlM_cons]
    exact stays_bind (h b item) fun b => ih b

end Rules

/-! ## The parts of the world -/

section Parts

variable {α : Type} {home : Option ScopeId} {loading : List String}

/-- A change of the store has to be one that code at home may make. -/
theorem stays_updateStore {change : Store → α × Store}
    (h : ∀ w : World, Evolves .settled home loading w { w with store := (change w.store).2 }) :
    Stays home loading (updateStore change) := fun w => h w

/-- The streams may change in any way. -/
theorem stays_updateStreams (change : Streams → α × Streams) :
    Stays home loading (updateStreams change) :=
  fun w => .change (.surroundings (change w.streams).2 w.environment w.files)

/-- The entries of a new scope have to be known in some scope. -/
theorem stays_newScope (entries : Store → Table CellId)
    (known : ∀ s, ∀ e ∈ entries s, ∃ scope, e ∈ s.scope scope) :
    Stays home loading (updateStore fun s => s.newScope (entries s)) :=
  stays_updateStore fun w => .change (.newScope (entries w.store) (known w.store))

theorem stays_newIdentity : Stays home loading (updateStore Store.newIdentity) :=
  stays_updateStore fun _ => .change .newIdentity

/-- A fresh variable is a cell and, for a namespace, a scope. -/
theorem evolves_declare (name : String) (w : World) :
    Evolves .settled home loading w { w with store := (w.store.declare name).2 } := by
  unfold Store.declare
  split
  · exact .change (.newCell _)
  · exact .trans (.change (.newScope [] nofun)) (.change (.newCell _))
  · exact .change (.newCell _)

/-- A declaration is for the scope that code is at home in. -/
theorem stays_declareHere {scope : ScopeId} (h : home = some scope) (name : String)
    (result : CellId → α) :
    Stays home loading (updateStore fun s =>
      (result (s.declare name).1, (s.declare name).2.bind scope name (s.declare name).1)) :=
  stays_updateStore fun w =>
    .trans (evolves_declare name w) (.change (.bind h name (w.store.isSome_cell?_declare name)))

/-- So is a new variable. -/
theorem stays_bindNew {scope : ScopeId} (h : home = some scope) (name : String) (c : Cell) :
    Stays home loading (updateStore fun s => ((), s.bindNew scope name c)) :=
  stays_updateStore fun w =>
    .trans (.change (.newCell c)) (.change (.bind h name (w.store.isSome_cell?_newCell c)))

/-- A change of a cell that amounts to an assignment, if it changes anything. -/
theorem stays_tryCell {ε : Type} {c : CellId} {change : Cell → Except ε Cell}
    (h : ∀ cell cell', change cell = .ok cell' →
      cell' = cell ∨ ∃ v, cell.assign v = .ok cell') :
    Stays home loading (tryCell c change) := by
  intro w
  rw [tryCell_run, Store.changeCell]
  cases hc : w.store.cell? c with
  | none => exact .refl w
  | some cell =>
    dsimp only
    cases hr : change cell with
    | error e => exact .refl w
    | ok cell' =>
      rcases h cell cell' hr with rfl | ⟨v, hv⟩
      · show Evolves .settled home loading w { w with store := w.store.setCell c cell' }
        rw [Store.setCell_self hc]
        exact .refl w
      · exact .change (.assign hc hv)

/-- The environment may change in any way. -/
theorem stays_tryEnvironment {ε : Type} (change : Environment → Except ε Environment) :
    Stays home loading (tryEnvironment change) := by
  intro w
  rw [tryEnvironment, get_bind_run]
  cases change w.environment with
  | error e => exact .refl w
  | ok environment => exact .change (.surroundings w.streams environment w.files)

end Parts

end Eval

end ValueShell
