/-
  The process environment.

  Names with texts, inherited by the commands that are started.  A name is BAD for writing if it is
  empty, or holds `=` or NUL; reading under such a name is not refused, it only finds what the
  lines `name=text` of the environment show.
-/
import ValueShell.Value.Basic

namespace ValueShell

/-- The variables of the environment, by name. -/
structure Environment where
  entries : Table String
deriving Inhabited

namespace Environment

/-- The text of a variable, empty if it is not set.  What counts is the line `name=text`, so a name
that itself holds `=` finds the variable whose line begins with it. -/
def get? (e : Environment) (name : String) : Option String :=
  if name = "" ∨ name.toList.contains '\x00' then none
  else
    let start := name.toList ++ ['=']
    e.entries.findSome? fun (key, text) =>
      let line := key.toList ++ '=' :: text.toList
      if start.isPrefixOf line then some (String.ofList (line.drop start.length)) else none

/-- The value that a variable reads as. -/
def read (e : Environment) (name : String) : Value := .text ((e.get? name).getD "")

/-- Refuses names that no variable can have. -/
def checkName (name : String) : Except Fault Unit :=
  if name = "" ∨ name.toList.any (fun c => c == '=' || c == '\x00') then
    .error (.badEnvironmentName name)
  else .ok ()

/-- Sets a variable to the printed form of a value. -/
def set (e : Environment) (name : String) (value : Value) : Except Fault Environment := do
  checkName name
  if value.display.toList.contains '\x00' then
    throw (.wrongArgument "string without NUL" value.repr)
  return ⟨e.entries.insert name value.display⟩

/-- Removes a variable. -/
def unset (e : Environment) (name : String) : Except Fault Environment := do
  checkName name
  return ⟨e.entries.erase name⟩

/-! ## What is read after a write -/

/-- What the line of an entry shows under a name. -/
def shown? (name : String) (entry : String × String) : Option String :=
  let start := name.toList ++ ['=']
  let line := entry.1.toList ++ '=' :: entry.2.toList
  if start.isPrefixOf line then some (String.ofList (line.drop start.length)) else none

theorem checkName_ok {name : String} (h : checkName name = .ok ()) :
    name ≠ "" ∧ '=' ∉ name.toList ∧ '\x00' ∉ name.toList := by
  unfold checkName at h
  split at h
  · exact nomatch h
  · next good =>
    simp only [List.any_eq_true, Bool.or_eq_true, beq_iff_eq, not_or, not_exists, not_and] at good
    exact ⟨good.1, fun equals => (good.2 _ equals).1 rfl, fun nul => (good.2 _ nul).2 rfl⟩

variable {name other : String}

theorem get?_eq (e : Environment) (named : name ≠ "") (clean : '\x00' ∉ name.toList) :
    e.get? name = e.entries.findSome? (shown? name) := by
  unfold get?
  rw [if_neg (by simp [named, clean])]
  rfl

@[simp] theorem shown?_self (name text : String) : shown? name (name, text) = some text := by
  simp [shown?, List.isPrefixOf_iff_prefix, List.prefix_append_right_inj]

/-- A line is shown under its own name, or under one that the name of the entry goes on from with `=`. -/
theorem eq_or_append_of_shown? {entry : String × String} {text : String} (plain : '=' ∉ name.toList)
    (h : shown? name entry = some text) :
    entry.1 = name ∨ ∃ more, entry.1.toList = name.toList ++ '=' :: more := by
  unfold shown? at h
  dsimp only at h
  split at h
  · next starts =>
    obtain ⟨rest, same⟩ := List.isPrefixOf_iff_prefix.mp starts
    rw [List.append_assoc] at same
    rcases List.append_eq_append_iff.mp same with ⟨more, key, line⟩ | ⟨more, key, line⟩
    · cases more with
      | nil => exact .inl (String.toList_inj.mp (by simpa using key))
      | cons c more =>
        cases line
        exact .inr ⟨more, key⟩
    · cases more with
      | nil => exact .inl (String.toList_inj.mp (by simpa using key.symm))
      | cons c more =>
        have equals := (List.cons.inj line).1
        rw [key, ← equals] at plain
        exact absurd (List.mem_append_right _ List.mem_cons_self) plain
  · exact nomatch h

theorem lt_append (before : List Char) (c : Char) (more : List Char) : before < before ++ c :: more := by
  induction before with
  | nil => exact List.nil_lt_cons c more
  | cons d before ih => exact List.cons_lt_cons_iff.mpr (.inr ⟨rfl, ih⟩)

/-- No line of an earlier name is shown under a name. -/
theorem shown?_of_lt (plain : '=' ∉ name.toList) {entry : String × String} (earlier : entry.1 < name) :
    shown? name entry = none := by
  cases h : shown? name entry with
  | none => rfl
  | some text =>
    rcases eq_or_append_of_shown? plain h with same | ⟨more, longer⟩
    · rw [same] at earlier
      exact absurd earlier (String.lt_irrefl name)
    · rw [String.lt_iff, longer] at earlier
      exact absurd (lt_append name.toList '=' more) (List.lt_asymm earlier)

/-- Nor is that of another name without `=`. -/
theorem shown?_of_ne (plain : '=' ∉ name.toList) {entry : String × String} (plain' : '=' ∉ entry.1.toList)
    (differ : entry.1 ≠ name) : shown? name entry = none := by
  cases h : shown? name entry with
  | none => rfl
  | some text =>
    rcases eq_or_append_of_shown? plain h with same | ⟨more, longer⟩
    · exact absurd same differ
    · exact absurd (longer ▸ by simp) plain'

theorem findSome?_insert_self (plain : '=' ∉ name.toList) (entries : Table String) (text : String) :
    (entries.insert name text).findSome? (shown? name) = some text := by
  induction entries with
  | nil => simp [Table.insert]
  | cons entry rest ih =>
    obtain ⟨key, old⟩ := entry
    unfold Table.insert
    split
    · simp
    · next differ =>
      split
      · simp
      · next later =>
        have earlier : key < name := Std.lt_of_le_of_ne later differ
        rw [List.findSome?_cons, shown?_of_lt plain earlier]
        exact ih

theorem findSome?_insert_of_ne (plain : '=' ∉ name.toList) (plain' : '=' ∉ other.toList) (differ : other ≠ name)
    (entries : Table String) (text : String) :
    (entries.insert other text).findSome? (shown? name) = entries.findSome? (shown? name) := by
  have hidden (text : String) : shown? name (other, text) = none := shown?_of_ne plain plain' differ
  induction entries with
  | nil => simp [Table.insert, hidden]
  | cons entry rest ih =>
    obtain ⟨key, old⟩ := entry
    unfold Table.insert
    split
    · next same =>
      subst same
      simp [hidden]
    · split
      · simp [hidden]
      · rw [List.findSome?_cons, List.findSome?_cons, ih]

theorem set_ok {e e' : Environment} {v : Value} (h : e.set name v = .ok e') :
    checkName name = .ok () ∧ e' = ⟨e.entries.insert name v.display⟩ := by
  unfold set at h
  cases good : checkName name with
  | error fault =>
    rw [good] at h
    exact nomatch h
  | ok u =>
    rw [good] at h
    by_cases nul : v.display.toList.contains '\x00'
    · simp only [nul] at h
      exact nomatch h
    · simp only [nul] at h
      cases h
      exact ⟨rfl, rfl⟩

/-- **A variable reads as the printed form of what it was set to.** -/
theorem read_set {e e' : Environment} {v : Value} (h : e.set name v = .ok e') : e'.read name = .text v.display := by
  obtain ⟨good, rfl⟩ := set_ok h
  obtain ⟨named, plain, clean⟩ := checkName_ok good
  rw [read, get?_eq _ named clean, findSome?_insert_self plain]
  rfl

/-- Every other variable reads as before. -/
theorem read_set_of_ne {e e' : Environment} {v : Value} (good : checkName other = .ok ()) (differ : name ≠ other)
    (h : e.set name v = .ok e') : e'.read other = e.read other := by
  obtain ⟨good', rfl⟩ := set_ok h
  obtain ⟨named, plain, clean⟩ := checkName_ok good
  obtain ⟨-, plain', -⟩ := checkName_ok good'
  rw [read, read, get?_eq _ named clean, get?_eq _ named clean, findSome?_insert_of_ne plain plain' differ]

end Environment

end ValueShell
