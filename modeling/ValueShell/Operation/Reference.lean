/-
  Names of variables.

  A variable is referred to by a name, which may be QUALIFIED by the scope or namespace it lives in:
  `ns:name`.  The last colon separates the two, except that a colon at the very end belongs to the
  name, because the names of namespaces themselves end in one.  The last character of a name is its
  SUFFIX and says what the variable may hold: a function after `~`, a namespace after `:`.
-/
import ValueShell.Text.Split

namespace ValueShell

/-- A reference to a variable. -/
structure Reference where
  /-- written with `@`: the elements of the value instead of the value -/
  explode : Bool
  /-- the qualifier, empty if there is none -/
  ns : String
  name : String
deriving DecidableEq, Repr, Inhabited

namespace Reference

/-- Splits a leading `@` off the text of a reference. -/
def leadingAt : List Char → Bool × List Char
  | '@' :: rest => (true, rest)
  | whole => (false, whole)

/-- Reads the text after `$`.  A colon at its end belongs to the name; of the others the last one
separates qualifier and name. -/
def ofText (text : String) : Reference :=
  let (explode, body) := leadingAt text.toList
  let split := match body.reverse with
    | ':' :: before => (splitAtLast ':' before.reverse).map fun (ns, name) => (ns, name ++ [':'])
    | _ => splitAtLast ':' body
  match split with
  | some (ns, name) => ⟨explode, String.ofList ns, String.ofList name⟩
  | none => ⟨explode, "", String.ofList body⟩

/-- The text of a reference without the `@`, as messages show it. -/
def shownText (text : String) : String := String.ofList (leadingAt text.toList).2

end Reference

/-- The name with its qualifier: `ns:name`, or the name alone. -/
def qualifiedName (ns name : String) : String := if ns = "" then name else ns ++ ":" ++ name

namespace Reference

/-- Every colon but one at the end of the text is left to the qualifier. -/
theorem ofText_name (text : String) : ':' ∉ (ofText text).name.toList.dropLast := by
  unfold ofText
  obtain ⟨explode, body⟩ := leadingAt text.toList
  dsimp only
  split
  · next ns name hsplit =>
    rw [String.toList_ofList]
    split at hsplit
    · obtain ⟨parts, hlast, heq⟩ := Option.map_eq_some_iff.mp hsplit
      obtain ⟨rfl, rfl⟩ := Prod.mk.inj heq
      rw [List.dropLast_concat]
      exact (splitAtLast_eq_some hlast).2
    · exact fun hin => (splitAtLast_eq_some hsplit).2 (List.dropLast_subset _ hin)
  · next hsplit =>
    rw [String.toList_ofList]
    split at hsplit
    · next before hbody =>
      have hwhole : body = before.reverse ++ [':'] := by
        simpa using congrArg List.reverse hbody
      rw [hwhole, List.dropLast_concat]
      exact splitAtLast_eq_none (Option.map_eq_none_iff.mp hsplit)
    · exact fun hin => splitAtLast_eq_none hsplit (List.dropLast_subset _ hin)

/-- What is qualified has a name. -/
theorem ofText_name_ne (text : String) (h : (ofText text).ns ≠ "") : (ofText text).name ≠ "" := by
  revert h
  unfold ofText
  obtain ⟨explode, body⟩ := leadingAt text.toList
  dsimp only
  split
  · next ns name hsplit =>
    intro _ hname
    have hnil : name = [] := by simpa using congrArg String.toList hname
    subst hnil
    split at hsplit
    · obtain ⟨parts, -, heq⟩ := Option.map_eq_some_iff.mp hsplit
      exact absurd (Prod.mk.inj heq).2 (by simp)
    · next hbody =>
      refine hbody ns.reverse ?_
      simpa using congrArg List.reverse (splitAtLast_eq_some hsplit).1
  · exact fun h => absurd rfl h

end Reference

theorem toList_qualifiedName {ns : String} (name : String) (h : ns ≠ "") :
    (qualifiedName ns name).toList = ns.toList ++ ':' :: name.toList := by
  simp [qualifiedName, h]

/-- A colon before more of a name is not its last character. -/
theorem colon_mem_dropLast (before : List Char) {name : List Char} (h : name ≠ []) :
    ':' ∈ (before ++ ':' :: name).dropLast := by
  rw [List.dropLast_append_of_ne_nil (by simp), List.dropLast_cons_of_ne_nil h]
  simp

/-- A qualifier with its colon is no longer than the other. -/
theorem qualifier_eq {ns ns' name name' : List Char} (hname' : name' ≠ [])
    (hname : ':' ∉ name.dropLast) {more : List Char} (hmore : ns' = ns ++ more)
    (h : ':' :: name = more ++ ':' :: name') : ns = ns' ∧ name = name' := by
  cases more with
  | nil => exact ⟨by simpa using hmore.symm, (List.cons.inj h).2⟩
  | cons c more =>
    obtain rfl : name = more ++ ':' :: name' := (List.cons.inj h).2
    exact absurd (colon_mem_dropLast more hname') hname

/-- **A shown name tells the variable.** -/
theorem Reference.eq_of_qualifiedName_eq {text text' : String}
    (h : qualifiedName (ofText text).ns (ofText text).name =
      qualifiedName (ofText text').ns (ofText text').name) :
    (ofText text).ns = (ofText text').ns ∧ (ofText text).name = (ofText text').name := by
  have toList_ne {name : String} (hn : name ≠ "") : name.toList ≠ [] := by simpa using hn
  -- an unqualified name has no colon where a qualified one has it
  have qualified {text text' : String} (hns : (ofText text).ns ≠ "")
      (h : qualifiedName (ofText text).ns (ofText text).name =
        qualifiedName (ofText text').ns (ofText text').name) : (ofText text').ns ≠ "" := by
    intro hns'
    rw [hns', qualifiedName, qualifiedName, if_neg hns, if_pos rfl] at h
    refine ofText_name text' ?_
    rw [← h]
    simpa using colon_mem_dropLast (ofText text).ns.toList (toList_ne (ofText_name_ne text hns))
  by_cases hns : (ofText text).ns = ""
  · have hns' : (ofText text').ns = "" := by
      cases Decidable.em ((ofText text').ns = "") with
      | inl hns' => exact hns'
      | inr hns' => exact absurd hns (qualified hns' h.symm)
    rw [hns, hns', qualifiedName, qualifiedName, if_pos rfl, if_pos rfl] at h
    exact ⟨hns.trans hns'.symm, h⟩
  · have hns' := qualified hns h
    have hlist := congrArg String.toList h
    rw [toList_qualifiedName _ hns, toList_qualifiedName _ hns'] at hlist
    have parts : (ofText text).ns.toList = (ofText text').ns.toList ∧
        (ofText text).name.toList = (ofText text').name.toList := by
      rcases List.append_eq_append_iff.mp hlist with ⟨more, hmore, hrest⟩ | ⟨more, hmore, hrest⟩
      · exact qualifier_eq (toList_ne (ofText_name_ne text' hns')) (ofText_name text) hmore hrest
      · obtain ⟨hq, hn⟩ :=
          qualifier_eq (toList_ne (ofText_name_ne text hns)) (ofText_name text') hmore hrest
        exact ⟨hq.symm, hn.symm⟩
    exact ⟨String.toList_inj.mp parts.1, String.toList_inj.mp parts.2⟩

/-- Splits the name of a command into qualifier and name.  Without a colon, or with one at its end,
a command name is not qualified. -/
def splitCommandName (name : String) : String × String :=
  match splitAtLast ':' name.toList with
  | some (ns, base@(_ :: _)) => (String.ofList ns, String.ofList base)
  | _ => ("", name)

/-- What a variable may hold, by the suffix of its name. -/
inductive Constraint
  /-- names that end in `~` hold functions -/
  | callable
  /-- names that end in `:` hold namespaces -/
  | namespaced
deriving DecidableEq, Repr, Inhabited

/-- The constraint that comes with a name. -/
def Constraint.forName? (name : String) : Option Constraint :=
  match name.toList.getLast? with
  | some '~' => some callable
  | some ':' => some namespaced
  | _ => none

/-- Commands that are not called but compiled: their arguments are syntax. -/
inductive SpecialForm
  | andForm
  | delForm
  | fnForm
  | forForm
  | ifForm
  | orForm
  | tryForm
  | useForm
  | whileForm
deriving DecidableEq, Repr, Inhabited

namespace SpecialForm

/-- The special form that a command name stands for. -/
def ofName? (name : String) : Option SpecialForm :=
  match name with
  | "and" => some andForm
  | "del" => some delForm
  | "fn" => some fnForm
  | "for" => some forForm
  | "if" => some ifForm
  | "or" => some orForm
  | "try" => some tryForm
  | "use" => some useForm
  | "while" => some whileForm
  | _ => none

end SpecialForm

end ValueShell
