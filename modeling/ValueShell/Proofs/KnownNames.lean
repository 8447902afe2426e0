/-
  More names, the same operation.

  A unit is compiled among the names that are known: the builtins, and the globals that the session has bound so
  far.  Both may grow without harm.  A unit that compiles keeps compiling, to the same operation, when there are more
  of them (`compileUnit_mono`), and no choice of names makes another operation of it (`compileUnit_unique`).  What the
  names decide is whether there is an operation.

  For a session this means that a line can be given again.  The builtins of a session are the same
  ones throughout, so as long as the globals are still there that the line was once compiled among, it compiles, and to
  what it did then.
-/
import ValueShell.Proofs.FixedBindings
import ValueShell.Proofs.ScopeIrrelevance

namespace ValueShell

/-! ## Units -/

section

variable {builtins builtins' globals globals' : List String} {unit : Chunk} {op op' : Operation}

/-- A unit starts in a table that has the names it is given. -/
theorem ScopeTable.Within.start (moreBuiltins : builtins ⊆ builtins') (moreGlobals : globals ⊆ globals') :
    (ScopeTable.start builtins globals).Within (ScopeTable.start builtins' globals') :=
  ⟨moreBuiltins, .scope moreGlobals .none⟩

/-- **A unit that compiles still compiles among more names**, and to the same operation. -/
theorem compileUnit_mono (moreBuiltins : builtins ⊆ builtins') (moreGlobals : globals ⊆ globals')
    (compiled : compileUnit builtins globals unit = .ok op) : compileUnit builtins' globals' unit = .ok op := by
  obtain ⟨t, made⟩ := compile_of_unit compiled
  obtain ⟨-, t', made', -⟩ := unit.compile_steady (.start moreBuiltins moreGlobals) made
  rw [compileUnit, made']
  rfl

/-- **Two lists of names that both let a unit compile** make the same operation of it. -/
theorem compileUnit_unique (compiled : compileUnit builtins globals unit = .ok op)
    (compiled' : compileUnit builtins' globals' unit = .ok op') : op = op' := by
  obtain ⟨_, made⟩ := compile_of_unit compiled
  obtain ⟨_, made'⟩ := compile_of_unit compiled'
  exact unit.compile_steady.unique made made'

end

/-! ## Sessions -/

namespace Session

variable {s t : Session} {source : Source} {op : Operation}

/-- A unit that is read and compiled is compiled by the session. -/
theorem compile_read {unit : Chunk} (read : readChunk source.code = .ok unit)
    (compiled : compileUnit (s.world.store.names s.setting.builtins) (s.world.store.names s.globals) unit = .ok op) :
    s.compile source = .ok op := by
  rw [compile, read]
  dsimp only
  rw [compiled]
  rfl

/-- The builtins of a session have the same names throughout. -/
theorem Later.builtinNames (later : s.Later t) (protects : s.Protects) :
    t.world.store.names t.setting.builtins = s.world.store.names s.setting.builtins := by
  rw [later.settled.1]
  exact congrArg Table.names (later.keepsBuiltins protects).scope

/-- A line keeps compiling while the globals are there that it was compiled among. -/
theorem compile_mono (sameBuiltins : t.world.store.names t.setting.builtins = s.world.store.names s.setting.builtins)
    (moreGlobals : s.world.store.names s.globals ⊆ t.world.store.names t.globals)
    (compiled : s.compile source = .ok op) : t.compile source = .ok op := by
  obtain ⟨unit, read, compiled⟩ := compile_ok compiled
  refine compile_read read ?_
  rw [sameBuiltins]
  exact compileUnit_mono (List.Subset.refl _) moreGlobals compiled

/-- **Compilation is monotone in the names that are known.**  Among more names a unit compiles to what it did; the
names have no other part in what it compiles to; and of two states of a session, whatever happened between them, the
one that has all the globals of the other accepts every line that the other accepts, and runs it as the same
operation. -/
theorem compilation_monotone :
    (∀ {builtins builtins' globals globals' : List String} {unit : Chunk} {op : Operation},
      builtins ⊆ builtins' → globals ⊆ globals' →
        compileUnit builtins globals unit = .ok op → compileUnit builtins' globals' unit = .ok op) ∧
    (∀ {builtins builtins' globals globals' : List String} {unit : Chunk} {op op' : Operation},
      compileUnit builtins globals unit = .ok op → compileUnit builtins' globals' unit = .ok op' → op = op') ∧
    ∀ (library : Library) (environment : Environment) (files : FileTree) (processId : String),
      let s := start library environment files processId
      ∀ {t u : Session}, s.Later t → s.Later u → t.world.store.names t.globals ⊆ u.world.store.names u.globals →
        ∀ {source : Source} {op : Operation}, t.compile source = .ok op →
          u.compile source = .ok op ∧ ∀ fuel ports, u.evaluate fuel source ports = u.execute fuel op source ports := by
  refine ⟨compileUnit_mono, compileUnit_unique, ?_⟩
  intro library environment files processId s t u before after more source op compiled
  have protects : s.Protects := protects_start library environment files processId
  have sameBuiltins : u.world.store.names u.setting.builtins = t.world.store.names t.setting.builtins :=
    (after.builtinNames protects).trans (before.builtinNames protects).symm
  have compiled' := compile_mono sameBuiltins more compiled
  refine ⟨compiled', fun fuel ports => ?_⟩
  rw [evaluate_run, compiled']

/-- The line deletes a global and assigns to it again.  It is rejected as long as `x` is not bound; once it is, the
line compiles, and it still does after more is bound, with a function among it that uses `x`. -/
theorem compilation_monotone_growing :
    let line := Source.interactive "del x; x = $true; f = \x7b put $x \x7d"
    let s := start ⟨none, []⟩ ⟨[]⟩ default "1"
    let t := s.after "x = a"
    let u := t.after "y = $x; fn g \x7b put $x $y \x7d"
    (s.compile line).isOk = false ∧ ∃ op, t.compile line = .ok op ∧ u.compile line = .ok op := by
  intro line s t u
  have before : s.Later t := .unit .now 60 (.interactive "x = a") .standard
  have after : s.Later u := .unit before 60 (.interactive "y = $x; fn g \x7b put $x $y \x7d") .standard
  have more : t.world.store.names t.globals ⊆ u.world.store.names u.globals := by decide +kernel
  have compiles : (t.compile line).isOk = true := by decide +kernel
  cases compiled : t.compile line with
  | error stop =>
    rw [compiled] at compiles
    exact nomatch compiles
  | ok op =>
    exact ⟨by decide +kernel, op, rfl, (compilation_monotone.2.2 ⟨none, []⟩ ⟨[]⟩ default "1" before after more
      compiled).1⟩

end Session

end ValueShell
