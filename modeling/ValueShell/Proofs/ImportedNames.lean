/-
  Where the names of an imported module are found.

  `use a/b` binds the namespace of the module under the name `b:`.  A variable of the module is then `$b:x`, and
  where the module has imported another one, `$b:q:x`.  The name under which an import binds is cut off at the
  last slash, and a qualifier is cut at its colons, so the two agree only where the name and the qualifier are cut
  in the same places.

  The crux is how a qualifier of several parts is looked up: the whole of it first, and then its parts, of which
  the first is looked up in the frame and every other one in the namespace before it (`find?_of_parts`).  A
  qualifier of one part is looked up whole unless it is one of the six that stand for something else
  (`find?_of_not_reserved`).  So a module is out of reach under one of these six, and what it has imported is
  out of reach by parts if one of the parts has a colon in it.
-/
import ValueShell.Operation.SpecialForms
import ValueShell.Proofs.SessionSafety
import ValueShell.Proofs.SharedModules

namespace ValueShell

/-! ## Qualifiers -/

theorem splitAtFirst_of_not_mem {c : Char} {before : List Char} (h : c ∉ before) (after : List Char) :
    splitAtFirst c (before ++ c :: after) = some (before, after) := by
  have kept : ∀ x ∈ before, (x != c) = true := fun x mem => bne_iff_ne.mpr fun same => h (same ▸ mem)
  rw [splitAtFirst, List.dropWhile_append_of_pos kept, List.takeWhile_append_of_pos kept]
  simp

namespace Frame

/-- The qualifiers that are not looked up as namespaces. -/
def reservedQualifiers : List String := ["", "local", "up", "builtin", "E", "e"]

variable {f : Frame} {s : Store} {ns name first x : String} {qs : List String} {start last : ScopeId} {c : CellId}

/-- Any other qualifier is the name of a namespace. -/
theorem find?_of_not_reserved (h : ns ∉ reservedQualifiers) :
    f.find? s ns name = (f.findNamespace? s ns.toList).bind fun scope => (s.find? scope name).map .cell := by
  simp only [reservedQualifiers, List.mem_cons, List.not_mem_nil, or_false, not_or] at h
  obtain ⟨nothing, loc, up, builtin, environment, system⟩ := h
  unfold find?
  split
  · exact absurd rfl nothing
  · exact absurd rfl loc
  · exact absurd rfl up
  · exact absurd rfl builtin
  · exact absurd rfl environment
  · exact absurd rfl system
  · rfl

/-- A qualifier with a colon in it is none of them. -/
theorem not_reserved_of_colon (h : ':' ∈ ns.toList) : ns ∉ reservedQualifiers := by
  intro mem
  simp only [reservedQualifiers, List.mem_cons, List.not_mem_nil, or_false] at mem
  rcases mem with rfl | rfl | rfl | rfl | rfl | rfl <;> exact absurd h (by decide)

end Frame

/-- From one namespace to another: each next one is held by a variable of the one before. -/
inductive Store.Chain (s : Store) : ScopeId → List String → ScopeId → Prop
  | here {ns : ScopeId} : Chain s ns [] ns
  | through {ns next last : ScopeId} {q : String} {qs : List String} {c : CellId}
      (bound : s.find? ns (q ++ ":") = some c) (holds : s.read c = .ns next) (rest : Chain s next qs last) :
      Chain s ns (q :: qs) last

theorem Store.read_of_namespaceIn? {s : Store} {c : CellId} {ns : ScopeId} (h : s.namespaceIn? c = some ns) :
    s.read c = .ns ns := by
  unfold namespaceIn? at h
  split at h
  · next scope holds => rw [holds, Option.some.inj h]
  · cases h

/-- A look-up by parts goes along the chain. -/
theorem Store.Chain.foldlM {s : Store} {start last : ScopeId} {qs : List String} (h : s.Chain start qs last) :
    (qs.map String.toList).foldlM s.namespaceNamed? start = some last := by
  induction h with
  | here => rfl
  | @through ns next last q qs c bound holds _ ih =>
    have one : s.namespaceNamed? ns q.toList = some next := by
      rw [namespaceNamed?, String.ofList_append, String.ofList_toList]
      show (s.find? ns (q ++ ":")).bind _ = _
      rw [bound, Option.bind_some, namespaceIn?, holds]
    rw [List.map_cons, List.foldlM_cons, one]
    exact ih

/-- The qualifier `first:q₁:…:qₖ`. -/
def qualifierOf (first : String) (qs : List String) : String :=
  String.ofList (joinWith ':' ((first :: qs).map String.toList))

theorem qualifierOf_nil (first : String) : qualifierOf first [] = first := String.ofList_toList

theorem toList_qualifierOf_cons (first q : String) (qs : List String) :
    (qualifierOf first (q :: qs)).toList = first.toList ++ ':' :: joinWith ':' ((q :: qs).map String.toList) :=
  String.toList_ofList

namespace Frame

variable {f : Frame} {s : Store} {ns name first x : String} {qs : List String} {start last : ScopeId} {c : CellId}

/-- The qualifier `first:q₁:…:qₖ` is cut where it was put together.  Alone, `first` must not stand for something
else; with further parts, either the whole of it is a name of the namespace that the parts lead to, or it is no
name of a namespace and no part has a colon in it. -/
def CutsAs (f : Frame) (s : Store) (first : String) (last : ScopeId) : List String → Prop
  | [] => first ∉ reservedQualifiers
  | q :: qs =>
    f.wholeNamespace? s (qualifierOf first (q :: qs)).toList = some last ∨
      f.wholeNamespace? s (qualifierOf first (q :: qs)).toList = none ∧ ∀ part ∈ first :: q :: qs, ':' ∉ part.toList

/-- **A namespace of several parts**, none of which has a colon in it, is found by its parts. -/
theorem findNamespace?_of_parts {q : String} (whole : f.wholeNamespace? s first.toList = some start)
    (chain : s.Chain start (q :: qs) last)
    (unbound : f.wholeNamespace? s (qualifierOf first (q :: qs)).toList = none)
    (parts : ∀ part ∈ first :: q :: qs, ':' ∉ part.toList) :
    f.findNamespace? s (qualifierOf first (q :: qs)).toList = some last := by
  have inner : splitOn ':' (joinWith ':' ((q :: qs).map String.toList)) = (q :: qs).map String.toList := by
    refine splitOn_joinWith (by simp) fun piece mem => ?_
    obtain ⟨part, inner, rfl⟩ := List.mem_map.mp mem
    exact parts part (List.mem_cons_of_mem _ inner)
  rw [findNamespace?, unbound, Option.none_or, toList_qualifierOf_cons,
    splitAtFirst_of_not_mem (parts first List.mem_cons_self), Option.bind_some]
  dsimp only
  rw [whole, Option.bind_some, inner, chain.foldlM]

/-- **A variable is found along a chain of namespaces**, from one that the frame has under a name. -/
theorem find?_of_parts (whole : f.wholeNamespace? s first.toList = some start) (chain : s.Chain start qs last)
    (bound : s.find? last x = some c) (cuts : f.CutsAs s first last qs) :
    f.find? s (qualifierOf first qs) x = some (.cell c) := by
  have found : qualifierOf first qs ∉ reservedQualifiers ∧
      f.findNamespace? s (qualifierOf first qs).toList = some last := by
    cases qs with
    | nil =>
      cases chain
      rw [qualifierOf_nil]
      exact ⟨cuts, findNamespace?_of_whole whole⟩
    | cons q qs =>
      refine ⟨not_reserved_of_colon ?_, ?_⟩
      · rw [toList_qualifierOf_cons]
        exact List.mem_append_right _ List.mem_cons_self
      · rcases cuts with named | ⟨unbound, parts⟩
        · exact findNamespace?_of_whole named
        · exact findNamespace?_of_parts whole chain unbound parts
  rw [find?_of_not_reserved found.1, found.2, Option.bind_some, bound, Option.map_some]

end Frame

/-! ## Imports -/

open SpecialForm (importName importPath)

/-- **An imported module is reachable under its name.**  After `use` with any literal has succeeded, at any moment of a
session, the namespace that it took is found in this frame under the part of the literal after the last slash; and a
variable to which a chain of namespaces leads from there is found under that name and the names of the chain, provided
that the qualifier is cut where it was put together. -/
theorem import_reachable {library : Library} {environment : Environment} {files : FileTree} {processId : String}
    {fuel : Nat} {spec : String} {span : Span} {f : Frame} {w w' : World}
    (moment : (Session.start library environment files processId).Moment f w)
    (run : (Runner.ofFuel fuel).operation (.useModule (importName spec) (importPath spec) span) f w = (.ok (), w')) :
    ∃ path ns older, resolvePath f.source (importPath spec) = .ok path ∧
      w'.journal = .imported path ns :: older ∧
      f.wholeNamespace? w'.store (importName spec).toList = some ns ∧
      ∀ qs last x c, w'.store.Chain ns qs last → w'.store.find? last x = some c →
        f.CutsAs w'.store (importName spec) last qs →
        f.find? w'.store (qualifierOf (importName spec) qs) x = some (.cell c) := by
  obtain ⟨path, ns, older, hpath, hjournal, whole⟩ := use_binds_whole moment.inOrder.known run
  exact ⟨path, ns, older, hpath, hjournal, whole, fun qs last x c chain bound cuts =>
    Frame.find?_of_parts whole chain bound cuts⟩

namespace Session

/-- A session with a few modules, two of which import a third. -/
def withModules : Session :=
  .start ⟨none, [("a/m", "use q"), ("b/c", "use q"), ("local", "y = 1"), ("q", "y = 2")]⟩ ⟨[]⟩ default "1"

/-- The frame of its units. -/
def topFrame : Frame := withModules.frame (.interactive "") .standard ⟨withModules.world.store.scopes.size⟩

/-- What a `use` at its top does. -/
def imports (spec : String) : Except Stop Unit × World :=
  (Runner.ofFuel 30).operation (.useModule (importName spec) (importPath spec) ⟨0, 0⟩) topFrame withModules.entered

/-- In `a/m`, and in `b/c` too, the name `q` stands for the namespace of the third module. -/
theorem chain_imports {spec : String} (bound : (imports spec).2.store.find? ⟨3⟩ "q:" = some ⟨29⟩)
    (holds : (imports spec).2.store.namespaceIn? ⟨29⟩ = some ⟨5⟩) :
    (imports spec).2.store.Chain ⟨3⟩ ["q"] ⟨5⟩ :=
  .through bound (Store.read_of_namespaceIn? holds) .here

/-- After `use a/m`, what `m` has imported as `q` is found under `m:q`. -/
theorem import_reachable_by_parts :
    (imports "a/m").1.isOk = true ∧ (imports "a/m").2.store.Chain ⟨3⟩ ["q"] ⟨5⟩ ∧
      (imports "a/m").2.store.find? ⟨5⟩ "y" = some ⟨28⟩ ∧
      topFrame.find? (imports "a/m").2.store "m:q" "y" = some (.cell ⟨28⟩) := by
  have ok : (imports "a/m").1.isOk = true := by decide +kernel
  have chain : (imports "a/m").2.store.Chain ⟨3⟩ ["q"] ⟨5⟩ := chain_imports (by decide +kernel) (by decide +kernel)
  have bound : (imports "a/m").2.store.find? ⟨5⟩ "y" = some ⟨28⟩ := by decide +kernel
  have run : (Runner.ofFuel 30).operation (.useModule (importName "a/m") (importPath "a/m") ⟨0, 0⟩) topFrame
      withModules.entered = (.ok (), (imports "a/m").2) := ran_of_isOk ok
  obtain ⟨path, ns, older, -, -, whole, found⟩ := import_reachable (.unit .now _ _) run
  have same : topFrame.wholeNamespace? (imports "a/m").2.store "m".toList = some ⟨3⟩ := by decide +kernel
  have name : importName "a/m" = "m" := by decide
  rw [name] at whole found
  obtain rfl : ns = ⟨3⟩ := Option.some.inj (whole.symm.trans same)
  have cuts : topFrame.CutsAs (imports "a/m").2.store "m" ⟨5⟩ ["q"] := .inr ⟨by decide +kernel, by decide⟩
  have parts : qualifierOf "m" ["q"] = "m:q" := by decide +kernel
  exact ⟨ok, chain, bound, parts ▸ found _ _ _ _ chain bound cuts⟩

/-- **Two imports out of reach.**  After `use local`, the qualifier `local` stands for the local scope and not for the
module.  After `use b:c`, what the module has imported as `q` is not found under `b:c:q`, which is cut into three
parts of which the frame knows none. -/
theorem imports_out_of_reach :
    ((imports "local").1.isOk = true ∧
      topFrame.wholeNamespace? (imports "local").2.store (importName "local").toList = some ⟨3⟩ ∧
      (imports "local").2.store.find? ⟨3⟩ "y" = some ⟨28⟩ ∧
      topFrame.find? (imports "local").2.store (qualifierOf (importName "local") []) "y" = none) ∧
    ((imports "b:c").1.isOk = true ∧
      topFrame.wholeNamespace? (imports "b:c").2.store (importName "b:c").toList = some ⟨3⟩ ∧
      (imports "b:c").2.store.Chain ⟨3⟩ ["q"] ⟨5⟩ ∧ (imports "b:c").2.store.find? ⟨5⟩ "y" = some ⟨28⟩ ∧
      topFrame.find? (imports "b:c").2.store (qualifierOf (importName "b:c") ["q"]) "y" = none) := by
  refine ⟨⟨?_, ?_, ?_, Option.isNone_iff_eq_none.mp ?_⟩, ?_, ?_, chain_imports ?_ ?_, ?_,
    Option.isNone_iff_eq_none.mp ?_⟩
  all_goals decide +kernel

end Session

end ValueShell
