/-
  Finite maps from names, in ascending order of the names.

  Maps of the language, scopes, the module cache and the environment are all the same thing: at most
  one entry per name, listed in the order of the names.  A `Table` is the list of its entries; the
  operations keep it sorted, and `Table.Sorted` says so.  The look-up laws below (`find?_insert`,
  `find?_erase`) hold of every list of entries, sorted or not, so most reasoning never needs the
  order.
-/

namespace ValueShell

/-- Entries by name.  The operations keep the names strictly ascending. -/
abbrev Table (α : Type u) := List (String × α)

namespace Table

variable {α : Type u} {β : Type v}

/-- No name twice, and every name before the later ones. -/
def Sorted (t : Table α) : Prop := t.Pairwise fun a b => a.1 < b.1

/-- The entry of `name`. -/
def find? (t : Table α) (name : String) : Option α :=
  match t with
  | [] => none
  | (key, value) :: rest => if key = name then some value else find? rest name

/-- Sets the entry of `name`, at its place in the order. -/
def insert (t : Table α) (name : String) (value : α) : Table α :=
  match t with
  | [] => [(name, value)]
  | (key, old) :: rest =>
    if key = name then (name, value) :: rest
    else if name < key then (name, value) :: (key, old) :: rest
    else (key, old) :: insert rest name value

/-- Removes the entry of `name`, if there is one. -/
def erase (t : Table α) (name : String) : Table α := t.filter fun e => decide (e.1 ≠ name)

/-- The names in ascending order. -/
def names (t : Table α) : List String := t.map Prod.fst

/-- The entries of `outer` and of `inner`, those of `inner` where both have one. -/
def overlay (outer inner : Table α) : Table α :=
  inner.foldl (fun t e => t.insert e.1 e.2) outer

/-- The table of the given entries; the last of equal names counts. -/
def ofList (entries : List (String × α)) : Table α := overlay [] entries

/-! ## What a look-up finds -/

@[simp] theorem find?_nil (name : String) : find? ([] : Table α) name = none := rfl

/-- An entry that is inserted is found under its name, and no other entry is touched. -/
theorem find?_insert (t : Table α) (name : String) (value : α) (other : String) :
    (t.insert name value).find? other = if name = other then some value else t.find? other := by
  induction t with
  | nil => by_cases h : name = other <;> simp [insert, find?, h]
  | cons e rest ih =>
    obtain ⟨key, old⟩ := e
    simp only [insert]
    by_cases hk : key = name
    · subst hk
      rw [if_pos rfl]
      by_cases h : key = other <;> simp [find?, h]
    · rw [if_neg hk]
      by_cases hl : name < key
      · rw [if_pos hl]
        by_cases h : name = other <;> simp [find?, h]
      · rw [if_neg hl]
        by_cases hko : key = other
        · have : name ≠ other := fun h => hk (hko.trans h.symm)
          simp [find?, hko, this]
        · simp [find?, hko, ih]

@[simp] theorem find?_insert_self (t : Table α) (name : String) (value : α) :
    (t.insert name value).find? name = some value := by simp [find?_insert]

theorem find?_insert_of_ne (t : Table α) {name other : String} (value : α) (h : name ≠ other) :
    (t.insert name value).find? other = t.find? other := by simp [find?_insert, h]

/-- Of two entries set for one name, the second stays. -/
theorem insert_insert (t : Table α) (name : String) (value other : α) :
    (t.insert name value).insert name other = t.insert name other := by
  induction t with
  | nil => simp [insert]
  | cons first rest ih =>
    obtain ⟨key, old⟩ := first
    by_cases same : key = name
    · simp [insert, same]
    · by_cases earlier : name < key
      · simp [insert, same, earlier]
      · simp [insert, same, earlier, ih]

/-- An entry that is erased is not found, and no other entry is touched. -/
theorem find?_erase (t : Table α) (name other : String) :
    (t.erase name).find? other = if name = other then none else t.find? other := by
  induction t with
  | nil => simp [erase]
  | cons e rest ih =>
    obtain ⟨key, value⟩ := e
    unfold erase at ih ⊢
    by_cases hk : key = name
    · subst hk
      by_cases h : key = other <;> simp_all [find?]
    · by_cases h : name = other
      · subst h; simp_all [find?]
      · by_cases hko : key = other <;> simp_all [find?]

/-- To erase a name that has no entry changes nothing. -/
theorem erase_of_find?_none {t : Table α} {name : String} (absent : t.find? name = none) :
    t.erase name = t := by
  induction t with
  | nil => rfl
  | cons e rest ih =>
    obtain ⟨key, value⟩ := e
    by_cases same : key = name
    · rw [find?, if_pos same] at absent
      exact nomatch absent
    · rw [find?, if_neg same] at absent
      have kept := ih absent
      unfold erase at kept ⊢
      rw [List.filter_cons_of_pos (by simpa using same), kept]

/-! ## Which entries there are -/

/-- What is found is an entry. -/
theorem mem_of_find? {t : Table α} {name : String} {value : α} (h : t.find? name = some value) :
    (name, value) ∈ t := by
  induction t with
  | nil => exact nomatch h
  | cons e rest ih =>
    obtain ⟨key, old⟩ := e
    by_cases hk : key = name
    · rw [find?, if_pos hk] at h
      cases h
      exact hk ▸ List.mem_cons_self
    · rw [find?, if_neg hk] at h
      exact List.mem_cons_of_mem _ (ih h)

/-- To insert an entry adds no other. -/
theorem mem_insert {t : Table α} {name : String} {value : α} {e : String × α}
    (h : e ∈ t.insert name value) : e = (name, value) ∨ e ∈ t := by
  induction t with
  | nil => exact .inl (List.mem_singleton.mp h)
  | cons first rest ih =>
    obtain ⟨key, old⟩ := first
    unfold insert at h
    split at h
    · exact (List.mem_cons.mp h).imp_right (List.mem_cons_of_mem _)
    · split at h
      · exact List.mem_cons.mp h
      · rcases List.mem_cons.mp h with rfl | h
        · exact .inr List.mem_cons_self
        · exact (ih h).imp_right (List.mem_cons_of_mem _)

/-- To erase one adds none. -/
theorem mem_of_mem_erase {t : Table α} {name : String} {e : String × α} (h : e ∈ t.erase name) :
    e ∈ t := (List.mem_filter.mp h).1

/-- The entries of an overlay come from one of the two. -/
theorem mem_overlay {outer inner : Table α} {e : String × α} (h : e ∈ overlay outer inner) :
    e ∈ outer ∨ e ∈ inner := by
  induction inner generalizing outer with
  | nil => exact .inl h
  | cons first rest ih =>
    rcases ih h with ho | hr
    · rcases mem_insert ho with rfl | ho
      · exact .inr List.mem_cons_self
      · exact .inl ho
    · exact .inr (List.mem_cons_of_mem _ hr)

/-- A name has an entry in the overlay if it has one in either table. -/
theorem isSome_find?_overlay (outer inner : Table α) (name : String) :
    ((overlay outer inner).find? name).isSome =
      ((inner.find? name).isSome || (outer.find? name).isSome) := by
  induction inner generalizing outer with
  | nil => rfl
  | cons first rest ih =>
    obtain ⟨key, value⟩ := first
    show ((overlay (outer.insert key value) rest).find? name).isSome = _
    rw [ih, find?_insert, find?]
    by_cases hk : key = name <;> simp [hk]

/-- A name that the inner table does not have stands for what it stands for in the outer one. -/
theorem find?_overlay_of_none (outer : Table α) {inner : Table α} {name : String}
    (absent : inner.find? name = none) :
    (overlay outer inner).find? name = outer.find? name := by
  induction inner generalizing outer with
  | nil => rfl
  | cons first rest ih =>
    obtain ⟨key, value⟩ := first
    unfold find? at absent
    split at absent
    · exact nomatch absent
    · next other =>
      show (overlay (outer.insert key value) rest).find? name = _
      rw [ih _ absent, find?_insert_of_ne _ _ other]

/-- The names are those that have an entry. -/
theorem mem_names {t : Table α} {name : String} :
    name ∈ t.names ↔ (t.find? name).isSome = true := by
  induction t with
  | nil => simp [names]
  | cons first rest ih =>
    obtain ⟨key, value⟩ := first
    rw [names, List.map_cons, List.mem_cons, find?]
    by_cases hk : key = name
    · simp [hk]
    · rw [if_neg hk]
      exact (or_iff_right (Ne.symm hk)).trans ih

/-! ## Sorted entries -/

/-- The order is kept. -/
theorem Sorted.insert {t : Table α} (h : Sorted t) (name : String) (value : α) :
    Sorted (t.insert name value) := by
  induction t with
  | nil => exact List.pairwise_singleton _ _
  | cons first rest ih =>
    obtain ⟨key, old⟩ := first
    obtain ⟨before, sorted⟩ := List.pairwise_cons.mp h
    unfold Table.insert
    split
    · next same =>
      subst same
      exact List.pairwise_cons.mpr ⟨before, sorted⟩
    · next other =>
      split
      · next earlier =>
        refine List.pairwise_cons.mpr ⟨fun e he => ?_, h⟩
        rcases List.mem_cons.mp he with rfl | he
        · exact earlier
        · exact String.lt_trans earlier (before e he)
      · next late =>
        have later : key < name := Std.lt_of_le_of_ne (String.not_lt.mp late) other
        refine List.pairwise_cons.mpr ⟨fun e he => ?_, ih sorted⟩
        rcases mem_insert he with rfl | he
        · exact later
        · exact before e he

/-- Every entry of a sorted table is found. -/
theorem Sorted.find?_of_mem {t : Table α} (h : Sorted t) {name : String} {value : α}
    (hm : (name, value) ∈ t) : t.find? name = some value := by
  induction t with
  | nil => exact nomatch hm
  | cons first rest ih =>
    obtain ⟨key, old⟩ := first
    obtain ⟨before, sorted⟩ := List.pairwise_cons.mp h
    unfold Table.find?
    rcases List.mem_cons.mp hm with same | hm
    · cases same
      exact if_pos rfl
    · have other : key ≠ name := by
        rintro rfl
        exact String.lt_irrefl _ (before (key, value) hm)
      rw [if_neg other, ih sorted hm]

/-- A name of a sorted inner table stands for what it stands for there. -/
theorem Sorted.find?_overlay (outer : Table α) {inner : Table α} (h : Sorted inner)
    {name : String} {value : α} (found : inner.find? name = some value) :
    (overlay outer inner).find? name = some value := by
  induction inner generalizing outer with
  | nil => exact nomatch found
  | cons first rest ih =>
    obtain ⟨key, old⟩ := first
    obtain ⟨before, sorted⟩ := List.pairwise_cons.mp h
    show (overlay (outer.insert key old) rest).find? name = _
    unfold find? at found
    split at found
    · next same =>
      subst same
      -- the other entries have later names
      have absent : find? rest key = none := by
        cases more : find? rest key with
        | none => rfl
        | some other => exact absurd (before _ (mem_of_find? more)) (String.lt_irrefl key)
      rw [find?_overlay_of_none _ absent, find?_insert_self, found]
    · exact ih _ sorted found

/-- Entries are added in their order, in whatever order they come. -/
theorem Sorted.overlay {outer : Table α} (h : Sorted outer) (inner : List (String × α)) :
    Sorted (overlay outer inner) := by
  induction inner generalizing outer with
  | nil => exact h
  | cons first rest ih => exact ih (h.insert first.1 first.2)

theorem sorted_ofList (entries : List (String × α)) : Sorted (ofList entries) := Sorted.overlay .nil entries

/-- The names are those of the given entries. -/
theorem mem_names_ofList {entries : List (String × α)} {name : String} :
    name ∈ (ofList entries).names ↔ name ∈ entries.map Prod.fst := by
  have given : name ∈ entries.map Prod.fst ↔ (find? entries name).isSome = true := mem_names
  rw [mem_names, given, ofList, isSome_find?_overlay, find?_nil, Option.isSome_none, Bool.or_false]

/-- An entry set to what it is changes nothing. -/
theorem Sorted.insert_of_find? {t : Table α} (h : Sorted t) {name : String} {value : α}
    (found : t.find? name = some value) : t.insert name value = t := by
  induction t with
  | nil => exact nomatch found
  | cons first rest ih =>
    obtain ⟨key, old⟩ := first
    obtain ⟨before, sorted⟩ := List.pairwise_cons.mp h
    unfold Table.find? at found
    unfold Table.insert
    by_cases same : key = name
    · rw [if_pos same] at found ⊢
      cases found
      rw [same]
    · rw [if_neg same] at found ⊢
      -- the entry is one of the rest, and those come later
      have late : ¬ name < key := String.lt_asymm (before _ (mem_of_find? found))
      rw [if_neg late, ih sorted found]

/-- A name after all others gets its place at the end. -/
theorem insert_last {t : Table α} {name : String} {value : α} (h : ∀ e ∈ t, e.1 < name) :
    t.insert name value = t ++ [(name, value)] := by
  induction t with
  | nil => rfl
  | cons first rest ih =>
    obtain ⟨key, old⟩ := first
    have hlt : key < name := h (key, old) List.mem_cons_self
    have hne : key ≠ name := by
      rintro rfl
      exact String.lt_irrefl key hlt
    rw [insert, if_neg hne, if_neg (String.lt_asymm hlt),
      ih fun e he => h e (List.mem_cons_of_mem _ he)]
    rfl

/-- Entries that come after those of a table are added to it as they are. -/
theorem overlay_append {t entries : Table α} (h : Sorted (t ++ entries)) :
    overlay t entries = t ++ entries := by
  induction entries generalizing t with
  | nil => exact (List.append_nil t).symm
  | cons e entries ih =>
    have last : t.insert e.1 e.2 = t ++ [e] := by
      refine insert_last fun x hx => ?_
      exact (List.pairwise_append.mp h).2.2 x hx e List.mem_cons_self
    rw [List.append_cons] at h
    show overlay (t.insert e.1 e.2) entries = _
    rw [last, ih h, List.append_assoc]
    rfl

/-- A table is made of its own entries. -/
theorem ofList_of_sorted {entries : Table α} (h : Sorted entries) : ofList entries = entries :=
  overlay_append h

end Table

end ValueShell
