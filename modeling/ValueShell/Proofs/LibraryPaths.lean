/-
  Module paths stay inside the library.

  The canonical form of a path is found with a stack, and whether a path leads out of the library is then
  read off the first characters of that form.  That this is enough rests on the shape of the stack.  Below
  the names that the path has entered and not left again, it holds one `..` for every step that went up
  from where there was nothing left to leave (`Stacked`).  So the form begins with `..` exactly if, at some
  point of the walk along the path, there were more steps up than steps into a name (`Climbs`).

    * `Confined` is what a path within the library looks like, and such a path names a file that is reached
      from the library by entering directories only (`LiesBelow`);
    * `escapes_clean` says which paths the check refuses;
    * the last part puts both together, for every source and every target.
-/
import Mathlib
import ValueShell.Module.Library
import ValueShell.Module.Path

namespace ValueShell

namespace ModulePath

/-! ## Walks along a path -/

/-- The segment enters a directory or a file: it is neither empty nor `.` nor `..`. -/
def IsName (segment : List Char) : Prop := segment ≠ [] ∧ segment ≠ ['.'] ∧ segment ≠ up

instance : DecidablePred IsName := fun _ => inferInstanceAs (Decidable (_ ∧ _ ∧ _))

/-- The steps of a walk that go into a name. -/
def entries (walked : List (List Char)) : Nat := walked.countP (IsName ·)

/-- The steps of a walk that go up. -/
def ascents (walked : List (List Char)) : Nat := walked.count up

/-- **The walk climbs out of where it began**: at some point there were more steps up than steps into a
name. -/
def Climbs (segments : List (List Char)) : Prop :=
  ∃ walked, walked <+: segments ∧ entries walked < ascents walked

theorem not_climbs_nil : ¬Climbs [] := by
  rintro ⟨walked, isPrefix, h⟩
  rw [List.prefix_nil.mp isPrefix] at h
  exact Nat.lt_irrefl 0 h

/-- One more step climbs out if the walk did before or does now. -/
theorem climbs_concat (walked : List (List Char)) (segment : List Char) :
    Climbs (walked ++ [segment]) ↔
      Climbs walked ∨ entries (walked ++ [segment]) < ascents (walked ++ [segment]) := by
  constructor
  · rintro ⟨before, isPrefix, h⟩
    rcases List.prefix_concat_iff.mp isPrefix with rfl | isPrefix
    · exact .inr h
    · exact .inl ⟨before, isPrefix, h⟩
  · rintro (⟨before, isPrefix, h⟩ | h)
    · exact ⟨before, isPrefix.trans (List.prefix_append walked [segment]), h⟩
    · exact ⟨_, List.prefix_rfl, h⟩

theorem entries_concat (walked : List (List Char)) (segment : List Char) :
    entries (walked ++ [segment]) = entries walked + if IsName segment then 1 else 0 := by
  simp [entries, List.countP_append, List.countP_cons]

theorem ascents_concat (walked : List (List Char)) (segment : List Char) :
    ascents (walked ++ [segment]) = ascents walked + if segment = up then 1 else 0 := by
  simp [ascents, List.count_append, List.count_cons]

/-- Going up is not going into a name. -/
theorem not_isName_up : ¬IsName up := fun h => h.2.2 rfl

/-! ## The stack -/

/-- **The stack after a walk** that does not start at the root: the names entered and not left, the last
one on top, and below them one `..` for every step that found nothing to leave. -/
structure Stacked (walked stack entered : List (List Char)) (above : Nat) : Prop where
  shape : stack = entered ++ List.replicate above up
  names : ∀ name ∈ entered, IsName name ∧ name ∈ walked
  /-- every step is accounted for -/
  balance : entries walked + above = ascents walked + entered.length
  climbed : 0 < above ↔ Climbs walked

theorem stacked_nil : Stacked [] [] [] 0 :=
  ⟨rfl, nofun, rfl, iff_of_false (Nat.lt_irrefl 0) not_climbs_nil⟩

namespace Stacked

variable {walked stack entered : List (List Char)} {above : Nat} {segment : List Char}

/-- A segment that leads nowhere. -/
theorem stay (h : Stacked walked stack entered above) (hs : segment = [] ∨ segment = ['.']) :
    Stacked (walked ++ [segment]) stack entered above := by
  have notName : ¬IsName segment := fun hn => hs.elim hn.1 hn.2.1
  have notUp : segment ≠ up := by rcases hs with rfl | rfl <;> decide
  have sameEntries : entries (walked ++ [segment]) = entries walked := by
    rw [entries_concat, if_neg notName, Nat.add_zero]
  have sameAscents : ascents (walked ++ [segment]) = ascents walked := by
    rw [ascents_concat, if_neg notUp, Nat.add_zero]
  refine ⟨h.shape, fun name hn => ⟨(h.names name hn).1, List.mem_append_left _ (h.names name hn).2⟩,
    by rw [sameEntries, sameAscents]; exact h.balance, ?_⟩
  rw [climbs_concat, sameEntries, sameAscents, h.climbed]
  exact ⟨.inl, fun hc => hc.elim id fun hlt => ⟨walked, List.prefix_rfl, hlt⟩⟩

/-- A segment that enters a name. -/
theorem enter (h : Stacked walked stack entered above) (hs : IsName segment) :
    Stacked (walked ++ [segment]) (segment :: stack) (segment :: entered) above := by
  have moreEntries : entries (walked ++ [segment]) = entries walked + 1 := by
    rw [entries_concat, if_pos hs]
  have sameAscents : ascents (walked ++ [segment]) = ascents walked := by
    rw [ascents_concat, if_neg hs.2.2, Nat.add_zero]
  refine ⟨congrArg (segment :: ·) h.shape, fun name hn => ?_, ?_, ?_⟩
  · rcases List.mem_cons.mp hn with rfl | hn
    · exact ⟨hs, List.mem_append_right _ List.mem_cons_self⟩
    · exact ⟨(h.names name hn).1, List.mem_append_left _ (h.names name hn).2⟩
  · have balance := h.balance
    rw [moreEntries, sameAscents, List.length_cons]
    omega
  · rw [climbs_concat, moreEntries, sameAscents, h.climbed]
    exact ⟨.inl, fun hc => hc.elim id fun hlt => ⟨walked, List.prefix_rfl, by omega⟩⟩

/-- Going up from a name leaves it. -/
theorem leave {name : List Char} (h : Stacked walked stack (name :: entered) above) :
    Stacked (walked ++ [up]) (entered ++ List.replicate above up) entered above := by
  have sameEntries : entries (walked ++ [up]) = entries walked := by
    rw [entries_concat, if_neg not_isName_up, Nat.add_zero]
  have moreAscents : ascents (walked ++ [up]) = ascents walked + 1 := by
    rw [ascents_concat, if_pos rfl]
  have balance := h.balance
  rw [List.length_cons] at balance
  refine ⟨rfl, fun other hn => ?_, by rw [sameEntries, moreAscents]; omega, ?_⟩
  · have known := h.names other (List.mem_cons_of_mem _ hn)
    exact ⟨known.1, List.mem_append_left _ known.2⟩
  · rw [climbs_concat, sameEntries, moreAscents, h.climbed]
    -- with a name to leave, the walk is out only if it was out before
    refine ⟨.inl, fun hc => hc.elim id fun hlt => h.climbed.mp ?_⟩
    omega

/-- Going up from where no name is left climbs out. -/
theorem climb (h : Stacked walked stack [] above) :
    Stacked (walked ++ [up]) (up :: List.replicate above up) [] (above + 1) := by
  have sameEntries : entries (walked ++ [up]) = entries walked := by
    rw [entries_concat, if_neg not_isName_up, Nat.add_zero]
  have moreAscents : ascents (walked ++ [up]) = ascents walked + 1 := by
    rw [ascents_concat, if_pos rfl]
  have balance := h.balance
  rw [List.length_nil] at balance
  refine ⟨rfl, nofun, by rw [sameEntries, moreAscents, List.length_nil]; omega, ?_⟩
  rw [climbs_concat, sameEntries, moreAscents]
  exact iff_of_true (Nat.succ_pos above) (.inr (by omega))

/-- **One step.** -/
theorem push (h : Stacked walked stack entered above) (segment : List Char) :
    ∃ entered' above',
      Stacked (walked ++ [segment]) (ModulePath.push false stack segment) entered' above' := by
  unfold ModulePath.push
  split
  · next hs => exact ⟨_, _, h.stay hs⟩
  · next hs =>
    split
    · next hup =>
      subst hup
      rw [h.shape]
      cases entered with
      | nil =>
        -- on top is a `..`, or nothing at all
        refine ⟨[], above + 1, ?_⟩
        cases above <;> exact h.climb
      | cons name entered =>
        have hname : name ≠ up := (h.names name List.mem_cons_self).1.2.2
        refine ⟨entered, above, ?_⟩
        rw [List.cons_append]
        simp only [if_neg hname]
        exact h.leave
    · next hup => exact ⟨_, _, h.enter ⟨fun he => hs (.inl he), fun he => hs (.inr he), hup⟩⟩

/-- **The whole walk.** -/
theorem foldl (h : Stacked walked stack entered above) (segments : List (List Char)) :
    ∃ entered' above',
      Stacked (walked ++ segments) (segments.foldl (ModulePath.push false) stack) entered' above' := by
  induction segments generalizing walked stack entered above with
  | nil => exact ⟨entered, above, by rwa [List.append_nil]⟩
  | cons segment segments ih =>
    obtain ⟨_, _, next⟩ := h.push segment
    rw [List.append_cons]
    exact ih next

end Stacked

/-! ## Paths within the library -/

/-- **A path within the library**: it does not start at the root, no segment is empty or goes up, and none
is `.` unless that is the whole path. -/
structure Confined (path : List Char) : Prop where
  nonempty : path ≠ []
  relative : path.head? ≠ some '/'
  segments : ∀ segment ∈ splitOn '/' path, segment ≠ [] ∧ segment ≠ up
  dot : ∀ segment ∈ splitOn '/' path, segment = ['.'] → path = ['.']

/-- The library itself. -/
theorem confined_dot : Confined ['.'] := by
  refine ⟨nofun, nofun, fun segment hs => ?_, fun _ _ _ => rfl⟩
  rw [List.mem_singleton.mp hs]
  decide

/-- A path made of names. -/
theorem confined_joinWith {names : List (List Char)} (nonempty : names ≠ [])
    (h : ∀ name ∈ names, IsName name ∧ '/' ∉ name) : Confined (joinWith '/' names) := by
  have split : splitOn '/' (joinWith '/' names) = names :=
    splitOn_joinWith nonempty fun name hn => (h name hn).2
  refine ⟨fun he => ?_, fun he => ?_, fun segment hs => ?_, fun segment hs hdot => ?_⟩
  · -- the empty path would be a single empty name
    rw [he] at split
    exact (h [] (split ▸ List.mem_cons_self)).1.1 rfl
  · -- what starts at the root has an empty first segment
    obtain ⟨rest, hrest⟩ := List.head?_eq_some_iff.mp he
    rw [hrest] at split
    exact (h [] (split ▸ List.mem_cons_self)).1.1 rfl
  · rw [split] at hs
    exact ⟨(h segment hs).1.1, (h segment hs).1.2.2⟩
  · rw [split] at hs
    exact absurd hdot (h segment hs).1.2.1

/-- The check lets a path within the library through. -/
theorem Confined.not_escapes {path : List Char} (h : Confined path) : escapes path = false := by
  have notUp : path ≠ up := by
    rintro rfl
    exact (h.segments up (List.mem_singleton.mpr rfl)).2 rfl
  have notAbove : (up ++ ['/']).isPrefixOf path = false := by
    refine Bool.eq_false_iff.mpr fun hp => ?_
    obtain ⟨rest, rfl⟩ := List.isPrefixOf_iff_prefix.mp hp
    exact (h.segments up List.mem_cons_self).2 rfl
  have notRooted : isRooted path = false := by
    simpa [isRooted] using h.relative
  rw [escapes, beq_eq_false_iff_ne.mpr notUp, notAbove, notRooted]
  rfl

variable {path : List Char}

/-- The canonical form of a path that starts at the root does so too. -/
theorem escapes_clean_of_rooted (h : isRooted path = true) : escapes (clean path) = true := by
  have rooted : isRooted (clean path) = true := by
    rw [clean, if_pos h]
    rfl
  rw [escapes, rooted, Bool.or_true]

/-- A walk that stays inside has a canonical form within the library. -/
theorem confined_clean (notRooted : isRooted path = false) (inside : ¬Climbs (splitOn '/' path)) :
    Confined (clean path) := by
  obtain ⟨entered, above, h⟩ := stacked_nil.foldl (splitOn '/' path)
  obtain rfl : above = 0 := Nat.eq_zero_of_not_pos fun hpos => inside (h.climbed.mp hpos)
  have segments : segments path = entered.reverse := by
    rw [ModulePath.segments, notRooted, h.shape, List.replicate_zero, List.append_nil]
  have names : ∀ name ∈ entered.reverse, IsName name ∧ '/' ∉ name := by
    intro name hn
    have known := h.names name (List.mem_reverse.mp hn)
    exact ⟨known.1, not_mem_splitOn known.2⟩
  rw [clean, notRooted, segments]
  by_cases hnone : entered = []
  · subst hnone
    exact confined_dot
  · have confined := confined_joinWith (mt List.reverse_eq_nil_iff.mp hnone) names
    have := confined.nonempty
    simpa [this] using confined

/-- A walk that climbs out has a canonical form that begins by going up. -/
theorem escapes_clean_of_climbs (notRooted : isRooted path = false)
    (out : Climbs (splitOn '/' path)) : escapes (clean path) = true := by
  obtain ⟨entered, above, h⟩ := stacked_nil.foldl (splitOn '/' path)
  obtain ⟨above, rfl⟩ := Nat.exists_eq_succ_of_ne_zero (Nat.ne_of_gt (h.climbed.mpr out))
  have segments : segments path = up :: (List.replicate above up ++ entered.reverse) := by
    rw [ModulePath.segments, notRooted, h.shape, List.reverse_append, List.reverse_replicate,
      List.replicate_succ, List.cons_append]
  rw [clean, notRooted, segments]
  cases List.replicate above up ++ entered.reverse with
  | nil => decide
  | cons next rest => simp [joinWith, up, escapes, List.isPrefixOf]

/-- **Which paths the check refuses.** -/
theorem escapes_clean (path : List Char) :
    escapes (clean path) = true ↔ isRooted path = true ∨ Climbs (splitOn '/' path) := by
  cases rooted : isRooted path with
  | true => simp [escapes_clean_of_rooted rooted]
  | false =>
    refine ⟨fun hout => .inr (Classical.byContradiction fun inside => ?_),
      fun h => escapes_clean_of_climbs rooted (h.resolve_left nofun)⟩
    rw [(confined_clean rooted inside).not_escapes] at hout
    exact nomatch hout

/-- What the check lets through is a path within the library. -/
theorem confined_of_not_escapes (h : escapes (clean path) = false) : Confined (clean path) := by
  have inside := mt (escapes_clean path).mpr (Bool.eq_false_iff.mp h)
  exact confined_clean (Bool.eq_false_iff.mpr fun hr => inside (.inl hr)) fun hc => inside (.inr hc)

/-! ## Files of the library -/

/-- **The file lies below the directory**: it is reached by entering names, and by nothing else. -/
def LiesBelow (directory file : String) : Prop :=
  ∃ names : List (List Char), names ≠ [] ∧ (∀ name ∈ names, IsName name ∧ '/' ∉ name) ∧
    file = joinPath directory (String.ofList (joinWith '/' names))

/-- What ends in the extension of modules is a name. -/
theorem isName_extended (segment : List Char) :
    IsName (segment ++ ("." ++ Library.extension).toList) := by
  have long : 2 < (segment ++ ("." ++ Library.extension).toList).length := by
    rw [List.length_append]
    exact Nat.lt_of_lt_of_le (by decide : 2 < ("." ++ Library.extension).toList.length)
      (Nat.le_add_left _ _)
  refine ⟨?_, ?_, ?_⟩ <;> intro he <;> rw [he] at long <;> revert long <;> decide

/-- All but the last segment of a path within the library are names: a segment `.` is the only one. -/
theorem Confined.isName_before (h : Confined path) {before : List (List Char)} {last : List Char}
    (hsplit : splitOn '/' path = before ++ [last]) {name : List Char} (hn : name ∈ before) :
    IsName name := by
  have hin : name ∈ splitOn '/' path := hsplit ▸ List.mem_append_left _ hn
  refine ⟨(h.segments name hin).1, fun hdot => ?_, (h.segments name hin).2⟩
  rw [h.dot name hin hdot] at hsplit
  have only : [['.']] = before ++ [last] := hsplit
  cases before with
  | nil => exact nomatch hn
  | cons first before => exact absurd (List.cons.inj only).2.symm (by simp)

/-- The file of a module lies below the library. -/
theorem Confined.liesBelow {path : String} (h : Confined path.toList) (directory : String) :
    LiesBelow directory (joinPath directory (path ++ "." ++ Library.extension)) := by
  have whole : joinWith '/' (splitOn '/' path.toList) = path.toList := joinWith_splitOn ..
  obtain ⟨before, last, hsplit⟩ :=
    (List.eq_nil_or_concat (splitOn '/' path.toList)).resolve_left (splitOn_ne_nil _ _)
  rw [List.concat_eq_append] at hsplit
  -- the extension makes the last segment longer, so that it is a name even if it was `.`
  refine ⟨before ++ [last ++ ("." ++ Library.extension).toList], by simp, fun name hn => ?_, ?_⟩
  · rcases List.mem_append.mp hn with hn | hn
    · exact ⟨h.isName_before hsplit hn, not_mem_splitOn (hsplit ▸ List.mem_append_left _ hn)⟩
    · have hlast : '/' ∉ last :=
        not_mem_splitOn (hsplit ▸ List.mem_append_right _ List.mem_cons_self)
      rw [List.mem_singleton.mp hn]
      refine ⟨isName_extended last, fun hin => ?_⟩
      rcases List.mem_append.mp hin with hin | hin
      · exact hlast hin
      · revert hin
        decide
  · rw [joinWith_append, ← hsplit, whole, String.append_assoc, ← String.toList_append,
      String.ofList_toList]

end ModulePath

/-! ## Resolving a target -/

open ModulePath

/-- The path that a target stands for, before it is brought into canonical form: a relative target starts
from the directory of the importing module. -/
def joinedPath (source : Source) (target : String) : List Char :=
  if isRelative target.toList then directory source.name.toList ++ '/' :: target.toList
  else target.toList

variable {source : Source} {target : String}

/-- A relative target of code that is no module is refused. -/
theorem resolvePath_relative (relative : isRelative target.toList = true)
    (noModule : source.isModule = false) :
    resolvePath source target = .error .relativeImport := by
  unfold resolvePath resolve
  rw [relative, noModule]
  rfl

/-- Any other target is checked in canonical form. -/
theorem resolvePath_eq (allowed : isRelative target.toList = true → source.isModule = true) :
    resolvePath source target =
      if escapes (clean (joinedPath source target)) then .error .importOutsideLibrary
      else .ok (String.ofList (clean (joinedPath source target))) := by
  have checked (joined : List Char) :
      Except.map String.ofList (do
        if escapes (clean joined) then throw Fault.importOutsideLibrary
        return clean joined : Except Fault (List Char)) =
      if escapes (clean joined) then Except.error Fault.importOutsideLibrary
      else .ok (String.ofList (clean joined)) := by
    cases escapes (clean joined) <;> rfl
  unfold resolvePath resolve joinedPath
  cases relative : isRelative target.toList with
  | false => exact checked target.toList
  | true =>
    rw [allowed relative]
    exact checked (directory source.name.toList ++ '/' :: target.toList)

/-- **Imports are confined to the library.**  Whatever path the target of an import resolves to, it is a
path within the library, and the file of that module lies below the library.  Conversely, a target that
the source may use is refused as leading out of the library exactly if the joined path starts at the root
or climbs out; any other resolves to the canonical form of the joined path. -/
theorem resolvePath_confined (source : Source) (target : String) :
    (∀ path, resolvePath source target = .ok path → Confined path.toList ∧
      ∀ library, LiesBelow library (joinPath library (path ++ "." ++ Library.extension))) ∧
    ((isRelative target.toList = true → source.isModule = true) →
      let joined := joinedPath source target
      (resolvePath source target = .error .importOutsideLibrary ↔
        joined.head? = some '/' ∨ Climbs (splitOn '/' joined)) ∧
      (¬(joined.head? = some '/' ∨ Climbs (splitOn '/' joined)) →
        resolvePath source target = .ok (String.ofList (clean joined)))) := by
  have refused : escapes (clean (joinedPath source target)) = true ↔
      (joinedPath source target).head? = some '/' ∨
        Climbs (splitOn '/' (joinedPath source target)) := by
    rw [escapes_clean, isRooted, beq_iff_eq]
  refine ⟨fun path hpath => ?_, fun allowed => ?_⟩
  · have allowed : isRelative target.toList = true → source.isModule = true := by
      intro relative
      cases hm : source.isModule with
      | true => rfl
      | false => exact nomatch (resolvePath_relative relative hm).symm.trans hpath
    rw [resolvePath_eq allowed] at hpath
    split at hpath
    · exact nomatch hpath
    · next inside =>
      cases hpath
      have confined : Confined (String.ofList (clean (joinedPath source target))).toList := by
        rw [String.toList_ofList]
        exact confined_of_not_escapes (Bool.eq_false_iff.mpr inside)
      exact ⟨confined, confined.liesBelow⟩
  · rw [resolvePath_eq allowed]
    refine ⟨?_, fun inside => ?_⟩
    · rw [← refused]
      split
      · next out => exact iff_of_true rfl out
      · next inside => exact iff_of_false nofun inside
    · rw [if_neg fun out => inside (refused.mp out)]

/-- From the module `a/b`, the target `../../x` climbs out: it is joined to `a/../../x`, with one step into a
name before two steps up.  The target `../c/./d` is the module `c/d`. -/
theorem resolvePath_confined_beside :
    let source : Source := .module "a/b" "lib/a/b.vesh" ""
    (resolvePath source "../../x" = .error .importOutsideLibrary) ∧
      resolvePath source "../c/./d" = .ok "c/d" ∧ Confined "c/d".toList ∧
      LiesBelow "lib" "lib/c/d.vesh" := by
  intro source
  have climbs : Climbs (splitOn '/' (joinedPath source "../../x")) :=
    ⟨["a".toList, "..".toList, "..".toList], by decide, by decide⟩
  have found : resolvePath source "../c/./d" = .ok "c/d" := by cbv
  have inside := (resolvePath_confined source "../c/./d").1 "c/d" found
  exact ⟨((resolvePath_confined source "../../x").2 fun _ => rfl).1.mpr (.inr climbs), found, inside.1,
    inside.2 "lib"⟩

end ValueShell
