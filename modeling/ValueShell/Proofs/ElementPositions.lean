/-
  Positions of elements.

  An index is a text.  It is read as a decimal integer of 64 bits, which counts from the end if it is negative, and the
  element at this position is read or replaced.  Three questions are behind this.

    * WHICH TEXTS are an index (`readIndex_eq_some_iff`): white space around it, a sign, any number of zeros, and the
      digits of the integer, in all ways that this leaves (`Spells`), and no other text.
    * WHICH POSITION is meant (`toPosition_of_spells`).  Reading and replacing ask the same function, and it gives the
      number of elements a say only in the end, so no spelling is out of range for one and not for the other.
    * WHICH ELEMENT is there, by the order in which the elements are listed (`Row`).  A text counts characters here,
      not bytes.

  A map has no positions.  Its keys are listed in order because all ways to make one put an entry at its place in the
  order (`Table.sorted_ofList`), whatever the order in which they were given.
-/
import Mathlib.Data.List.DropRight
import Mathlib.Data.List.GetD
import ValueShell.Value.Basic

namespace ValueShell

/-! ## Decimal digits -/

namespace Numeral

/-- A digit is read as the number that it was written for. -/
theorem digit?_digitChar : ∀ n < 10, digit? 10 (Nat.digitChar n) = some n := by decide

/-- A digit of base ten is the character of its value. -/
theorem eq_digitChar {c : Char} {d : Nat} (h : digit? 10 c = some d) : d < 10 ∧ c = Nat.digitChar d := by
  obtain ⟨value, small⟩ := Option.filter_eq_some_iff.mp h
  have small : d < 10 := of_decide_eq_true small
  refine ⟨small, ?_⟩
  split at value
  · next digit =>
    cases value
    have bounds : 48 ≤ c.toNat ∧ c.toNat ≤ 57 := by
      simpa [Char.isDigit, UInt32.le_iff_toNat_le] using digit
    apply Char.toNat_inj.mp
    rw [Nat.toNat_digitChar_of_lt_ten small]
    show c.toNat = 48 + (c.toNat - 48)
    omega
  · -- letters have values from ten on
    split at value
    · cases value
      omega
    · split at value
      · cases value
        omega
      · exact nomatch value

/-- Digits are read from left to right. -/
theorem digits?_append (base acc : Nat) (xs ys : List Char) :
    digits? base acc (xs ++ ys) = (digits? base acc xs).bind fun n => digits? base n ys := by
  induction xs generalizing acc with
  | nil => rfl
  | cons x xs ih =>
    rw [List.cons_append, digits?, digits?, Option.bind_assoc]
    exact congrArg (Option.bind (digit? base x)) (funext fun d => ih _)

/-- Zeros in front do not count. -/
theorem digits?_zeros (zeros : Nat) (ds : List Char) :
    digits? 10 0 (List.replicate zeros '0' ++ ds) = digits? 10 0 ds := by
  induction zeros with
  | zero => rfl
  | succ zeros ih => exact ih

/-- **The digits of a number are read as this number.** -/
theorem digits?_toDigits (n : Nat) : digits? 10 0 (Nat.toDigits 10 n) = some n := by
  induction n using Nat.strongRecOn with
  | ind n ih =>
    by_cases small : n < 10
    · rw [Nat.toDigits_of_lt_base small, digits?, digit?_digitChar n small]
      show some (0 * 10 + n) = some n
      rw [Nat.zero_mul, Nat.zero_add]
    · have large : 10 ≤ n := Nat.le_of_not_lt small
      have last : n % 10 < 10 := Nat.mod_lt n (by decide)
      rw [Nat.toDigits_of_base_le (by decide) large, digits?_append, ih (n / 10) (by omega), Option.bind_some, digits?,
        digit?_digitChar _ last]
      show some (n / 10 * 10 + n % 10) = some n
      rw [Nat.div_add_mod']

/-- Digits read onto a number are put behind its digits, but for zero, whose digit would be lost. -/
theorem toDigits_append {acc n : Nat} {ds : List Char} (some : 0 < acc) (h : digits? 10 acc ds = .some n) :
    Nat.toDigits 10 acc ++ ds = Nat.toDigits 10 n := by
  induction ds generalizing acc with
  | nil =>
    obtain rfl : acc = n := Option.some.inj h
    exact List.append_nil _
  | cons c ds ih =>
    obtain ⟨d, digit, rest⟩ := Option.bind_eq_some_iff.mp h
    obtain ⟨small, rfl⟩ := eq_digitChar digit
    have more : Nat.toDigits 10 acc ++ [Nat.digitChar d] = Nat.toDigits 10 (acc * 10 + d) := by
      rw [← Nat.toDigits_of_lt_base small, Nat.toDigits_append_toDigits (by decide) some small, Nat.mul_comm]
    rw [List.append_cons, more]
    exact ih (by omega) rest

/-- **Digits are zeros and the digits of the number** that they are read as. -/
theorem exists_zeros {n : Nat} {ds : List Char} (nonempty : ds ≠ []) (h : digits? 10 0 ds = some n) :
    ∃ zeros, ds = List.replicate zeros '0' ++ Nat.toDigits 10 n := by
  induction ds with
  | nil => exact absurd rfl nonempty
  | cons c ds ih =>
    obtain ⟨d, digit, rest⟩ := Option.bind_eq_some_iff.mp h
    obtain ⟨small, rfl⟩ := eq_digitChar digit
    rw [Nat.zero_mul, Nat.zero_add] at rest
    by_cases zero : d = 0
    · subst zero
      by_cases last : ds = []
      · subst last
        obtain rfl : 0 = n := Option.some.inj rest
        exact ⟨0, rfl⟩
      · obtain ⟨zeros, rfl⟩ := ih last rest
        exact ⟨zeros + 1, rfl⟩
    · have whole := toDigits_append (Nat.pos_of_ne_zero zero) rest
      rw [Nat.toDigits_of_lt_base small] at whole
      exact ⟨0, whole⟩

end Numeral

/-! ## Spellings -/

/-- How an integer may be signed. -/
inductive Signed (i : Int) : List Char → Prop
  | minus : i ≤ 0 → Signed i ['-']
  | plus : 0 ≤ i → Signed i ['+']
  | bare : 0 ≤ i → Signed i []

/-- **A text spells an integer** in decimal: with white space around it, with a sign, which only a negative integer
needs, and with zeros in front of its digits. -/
def Spells (text : List Char) (i : Int) : Prop :=
  ∃ before sign zeros after, (∀ c ∈ before, isBlank c = true) ∧ Signed i sign ∧ (∀ c ∈ after, isBlank c = true) ∧
    text = before ++ (sign ++ (List.replicate zeros '0' ++ Nat.toDigits 10 i.natAbs)) ++ after

/-- An integer of 64 bits. -/
def IsInt64 (i : Int) : Prop := leastInt64 ≤ i ∧ i ≤ greatestInt64

instance : DecidablePred IsInt64 := fun _ => inferInstanceAs (Decidable (_ ∧ _))

/-- White space around a text is taken away. -/
theorem trimBlank_append {before core after : List Char} (front : ∀ c ∈ before, isBlank c = true)
    (back : ∀ c ∈ after, isBlank c = true) (inner : ∀ c ∈ core, isBlank c = false) (some : core ≠ []) :
    trimBlank (before ++ core ++ after) = core := by
  have stops {cs : List Char} (more : List Char) (some : cs ≠ []) (inner : ∀ c ∈ cs, isBlank c = false) :
      (cs ++ more).dropWhile isBlank = cs ++ more := by
    obtain ⟨c, rest, rfl⟩ := List.exists_cons_of_ne_nil some
    refine List.dropWhile_cons_of_neg ?_
    rw [inner c List.mem_cons_self]
    nofun
  have first : (before ++ core ++ after).dropWhile isBlank = core ++ after := by
    rw [List.append_assoc, List.dropWhile_append_of_pos front, stops after some inner]
  have last : (core ++ after).reverse.dropWhile isBlank = core.reverse := by
    rw [List.reverse_append, List.dropWhile_append_of_pos fun c mem => back c (List.mem_reverse.mp mem)]
    have stop := stops [] (mt List.reverse_eq_nil_iff.mp some) fun c mem => inner c (List.mem_reverse.mp mem)
    rwa [List.append_nil] at stop
  rw [trimBlank, first, last, List.reverse_reverse]

/-- What is taken away is white space. -/
theorem exists_trimBlank (text : List Char) : ∃ before after, (∀ c ∈ before, isBlank c = true) ∧
    (∀ c ∈ after, isBlank c = true) ∧ text = before ++ trimBlank text ++ after := by
  refine ⟨text.takeWhile isBlank, (text.dropWhile isBlank).rtakeWhile isBlank, ?_, ?_, ?_⟩
  · exact fun c mem => List.mem_takeWhile_imp mem
  · exact fun c mem => List.mem_rtakeWhile_imp mem
  · have rest : trimBlank text ++ (text.dropWhile isBlank).rtakeWhile isBlank = text.dropWhile isBlank :=
      List.rdropWhile_append_rtakeWhile ..
    rw [List.append_assoc, rest, List.takeWhile_append_dropWhile]

/-- Digits are not white space. -/
theorem not_isBlank_of_isDigit {c : Char} (h : c.isDigit = true) : isBlank c = false := by
  have bounds : 48 ≤ c.toNat ∧ c.toNat ≤ 57 := by
    simpa [Char.isDigit, UInt32.le_iff_toNat_le] using h
  simp [isBlank, CharRange.any, Blank.ranges, CharRange.contains]
  omega

/-- All of them are digits. -/
theorem isDigit_of_mem {zeros n : Nat} {c : Char} (mem : c ∈ List.replicate zeros '0' ++ Nat.toDigits 10 n) :
    c.isDigit = true := by
  rcases List.mem_append.mp mem with mem | mem
  · rw [List.eq_of_mem_replicate mem]
    rfl
  · exact Nat.isDigit_of_mem_toDigits (by decide) (by decide) mem

namespace Numeral

theorem sign_minus (ds : List Char) : sign ('-' :: ds) = (true, ds) := rfl

theorem sign_plus (ds : List Char) : sign ('+' :: ds) = (false, ds) := rfl

theorem sign_bare {c : Char} (notMinus : c ≠ '-') (notPlus : c ≠ '+') (ds : List Char) :
    sign (c :: ds) = (false, c :: ds) := by
  unfold sign
  split
  · next same => exact absurd (List.cons.inj same).1 notPlus
  · next same => exact absurd (List.cons.inj same).1 notMinus
  · rfl

/-- **What comes after a sign** is read as the integer if it is zeros and the digits, and the sign is right. -/
theorem int64?_eq_some_iff {cs ds : List Char} {negative : Bool} {i : Int} (signed : sign cs = (negative, ds)) :
    int64? 10 cs = some i ↔ IsInt64 i ∧ (if negative then i ≤ 0 else 0 ≤ i) ∧
      ∃ zeros, ds = List.replicate zeros '0' ++ Nat.toDigits 10 i.natAbs := by
  have read : int64? 10 cs = if ds.isEmpty then none else (digits? 10 0 ds).bind fun n =>
      if IsInt64 (if negative then -(n : Int) else n) then some (if negative then -(n : Int) else n) else none := by
    rw [int64?, signed]
    rfl
  rw [read]
  constructor
  · intro h
    obtain ⟨nonempty, h⟩ := Option.ite_none_left_eq_some.mp h
    obtain ⟨n, digits, h⟩ := Option.bind_eq_some_iff.mp h
    obtain ⟨fits, value⟩ := Option.ite_none_right_eq_some.mp h
    obtain ⟨zeros, same⟩ := exists_zeros (mt List.isEmpty_iff.mpr nonempty) digits
    obtain rfl := Option.some.inj value
    refine ⟨fits, ?_⟩
    cases negative with
    | true =>
      have right : -(n : Int) ≤ 0 := by omega
      have digitsOf : (-(n : Int)).natAbs = n := by omega
      exact ⟨right, zeros, same.trans (congrArg (fun k => _ ++ Nat.toDigits 10 k) digitsOf.symm)⟩
    | false => exact ⟨Int.natCast_nonneg n, zeros, same⟩
  · rintro ⟨fits, right, zeros, rfl⟩
    have nonempty : ¬(List.replicate zeros '0' ++ Nat.toDigits 10 i.natAbs).isEmpty = true := by
      simp [Nat.toDigits_ne_nil]
    have value : (if negative then -(i.natAbs : Int) else i.natAbs) = i := by
      cases negative with
      | true =>
        have right : i ≤ 0 := right
        show -(i.natAbs : Int) = i
        omega
      | false => exact Int.natAbs_of_nonneg right
    rw [if_neg nonempty, digits?_zeros, digits?_toDigits, Option.bind_some, value, if_pos fits]

end Numeral

/-- **Which texts are an index**: those that spell an integer of 64 bits. -/
theorem readIndex_eq_some_iff {text : List Char} {i : Int} : readIndex text = some i ↔ Spells text i ∧ IsInt64 i := by
  constructor
  · intro h
    obtain ⟨before, after, front, back, whole⟩ := exists_trimBlank text
    have spelled {sign ds : List Char} (signed : Signed i sign) (core : trimBlank text = sign ++ ds)
        (digits : ∃ zeros, ds = List.replicate zeros '0' ++ Nat.toDigits 10 i.natAbs) : Spells text i := by
      obtain ⟨zeros, rfl⟩ := digits
      exact ⟨before, sign, zeros, after, front, signed, back, core ▸ whole⟩
    rw [readIndex] at h
    -- the first character tells which sign there is
    cases core : trimBlank text with
    | nil =>
      rw [core] at h
      exact nomatch h
    | cons c rest =>
      rw [core] at h
      by_cases minus : c = '-'
      · subst minus
        obtain ⟨fits, right, digits⟩ := (Numeral.int64?_eq_some_iff (Numeral.sign_minus rest)).mp h
        exact ⟨spelled (.minus right) core digits, fits⟩
      · by_cases plus : c = '+'
        · subst plus
          obtain ⟨fits, right, digits⟩ := (Numeral.int64?_eq_some_iff (Numeral.sign_plus rest)).mp h
          exact ⟨spelled (.plus right) core digits, fits⟩
        · obtain ⟨fits, right, digits⟩ := (Numeral.int64?_eq_some_iff (Numeral.sign_bare minus plus rest)).mp h
          exact ⟨spelled (.bare right) core digits, fits⟩
  · rintro ⟨⟨before, sign, zeros, after, front, signed, back, rfl⟩, fits⟩
    have inner : ∀ c ∈ sign ++ (List.replicate zeros '0' ++ Nat.toDigits 10 i.natAbs), isBlank c = false := by
      intro c mem
      rcases List.mem_append.mp mem with mem | mem
      · cases signed with
        | minus | plus =>
          rw [List.mem_singleton.mp mem]
          rfl
        | bare => exact nomatch mem
      · exact not_isBlank_of_isDigit (isDigit_of_mem mem)
    have some : List.replicate zeros '0' ++ Nat.toDigits 10 i.natAbs ≠ [] := by
      simp [Nat.toDigits_ne_nil]
    rw [readIndex, trimBlank_append front back inner (List.append_ne_nil_of_right_ne_nil _ some)]
    cases signed with
    | minus right => exact (Numeral.int64?_eq_some_iff (Numeral.sign_minus _)).mpr ⟨fits, right, zeros, rfl⟩
    | plus right => exact (Numeral.int64?_eq_some_iff (Numeral.sign_plus _)).mpr ⟨fits, right, zeros, rfl⟩
    | bare right =>
      obtain ⟨c, rest, digits⟩ := List.exists_cons_of_ne_nil some
      have digit : c.isDigit = true := isDigit_of_mem (digits ▸ List.mem_cons_self)
      have notMinus : c ≠ '-' := by rintro rfl; exact nomatch digit
      have notPlus : c ≠ '+' := by rintro rfl; exact nomatch digit
      rw [List.nil_append, digits]
      exact (Numeral.int64?_eq_some_iff (Numeral.sign_bare notMinus notPlus rest)).mpr ⟨fits, right, zeros, digits.symm⟩

/-! ## Positions -/

/-- The index is that of one of `n` elements. -/
def InRange (n : Nat) (i : Int) : Prop := -(n : Int) ≤ i ∧ i < n

instance (n : Nat) (i : Int) : Decidable (InRange n i) := inferInstanceAs (Decidable (_ ∧ _))

/-- The position that it means: a negative one counts from the end. -/
def place (n : Nat) (i : Int) : Nat := (if i < 0 then n + i else i).toNat

/-- A position in range is a position of the list. -/
theorem place_lt {n : Nat} {i : Int} (h : InRange n i) : place n i < n := by
  unfold place
  obtain ⟨low, high⟩ := h
  split <;> omega

/-- **No overflow**: the sum of a negative index and a number of elements, in words of 64 bits, is their sum.  No
container has more elements than the greatest of these words. -/
theorem sum_of_words {n : Nat} {i : Int} (many : (n : Int) ≤ greatestInt64) (fits : IsInt64 i) (negative : i < 0) :
    (Int64.ofInt i + Int64.ofNat n).toInt = i + n := by
  obtain ⟨low, -⟩ := fits
  unfold leastInt64 at low
  unfold greatestInt64 at many
  have word : (Int64.ofInt i).toInt = i := Int64.toInt_ofInt_of_le (by omega) (by omega)
  have count : (Int64.ofNat n).toInt = n := Int64.toInt_ofNat_of_lt (by omega)
  rw [Int64.toInt_add, word, count]
  exact Int.bmod_eq_of_le (by omega) (by omega)

namespace Value

/-- **The position that an index means**, whatever its spelling. -/
theorem toPosition_of_spells {text : String} {i : Int} (spells : Spells text.toList i) (fits : IsInt64 i) (n : Nat) :
    (Value.text text).toPosition n = if InRange n i then .ok (place n i) else .error .indexOutOfRange := by
  have read : (Value.text text).toIndex = .ok i := by
    rw [toIndex, readIndex_eq_some_iff.mpr ⟨spells, fits⟩]
  have bounds : 0 ≤ (if i < 0 then i + n else i) ∧ (if i < 0 then i + n else i) < n ↔ InRange n i := by
    unfold InRange
    split <;> omega
  have same : (if i < 0 then i + n else i).toNat = place n i := by
    rw [place, Int.add_comm]
  rw [toPosition, read]
  show (if _ then Except.ok (if i < 0 then i + n else i).toNat else _) = _
  rw [same]
  exact if_congr bounds rfl rfl

/-- A text that spells no integer of 64 bits is no index. -/
theorem toPosition_of_not_spells {text : String} (h : ∀ i, IsInt64 i → ¬Spells text.toList i) (n : Nat) :
    (Value.text text).toPosition n = .error (.badIndex (quoted text)) := by
  cases read : readIndex text.toList with
  | none =>
    rw [toPosition, toIndex, read]
    rfl
  | some i =>
    obtain ⟨spells, fits⟩ := readIndex_eq_some_iff.mp read
    exact absurd spells (h i fits)

/-! ## Elements in a row -/

/-- **The values whose elements have positions**, with their elements: the items of a list, the characters of a
text. -/
inductive Row : Value → List Value → Prop
  | list (items : List Value) : Row (.list items) items
  | text (s : String) : Row (.text s) (s.toList.map fun c => .text (String.singleton c))

namespace Row

variable {c key : Value} {items : List Value}

/-- A row has its items as elements. -/
theorem elements (row : Row c items) : c.elements = .ok items := by
  cases row <;> rfl

/-- What is read is the element at the position. -/
theorem index_ok (row : Row c items) {i : Nat} (h : key.toPosition items.length = .ok i) (known : i < items.length) :
    c.index key = .ok items[i] := by
  cases row with
  | list =>
    rw [Value.index, h]
    show Except.ok (items.getD i _) = _
    rw [List.getD_eq_getElem _ _ known]
  | text s =>
    rw [List.length_map] at h known
    rw [Value.index, h, List.getElem_map]
    show Except.ok (Value.text (String.singleton (s.toList.getD i ' '))) = _
    rw [List.getD_eq_getElem _ _ known]

/-- What is no position is no index of a row. -/
theorem index_error (row : Row c items) {e : Fault} (h : key.toPosition items.length = .error e) :
    c.index key = .error e := by
  cases row with
  | list =>
    rw [Value.index, h]
    rfl
  | text s =>
    rw [List.length_map] at h
    rw [Value.index, h]
    rfl

end Row

/-- What is replaced is the item at the position. -/
theorem assoc_list {items : List Value} {key : Value} {i : Nat} (h : key.toPosition items.length = .ok i)
    (new : Value) : (list items).assoc key new = .ok (.list (items.set i new)) := by
  rw [assoc, h]
  rfl

/-- Nor can anything be put there. -/
theorem assoc_list_error {items : List Value} {key : Value} {e : Fault} (h : key.toPosition items.length = .error e)
    (new : Value) : (list items).assoc key new = .error e := by
  rw [assoc, h]
  rfl

/-! ## Keys in order -/

/-- A key is found if it is one of the names. -/
theorem index_map (entries : List (String × Value)) (key : String) :
    (map entries).index (.text key) = match Table.find? entries key with
      | some v => .ok v
      | none => .error (.noSuchKey key) := rfl

/-- The names of a sorted table ascend. -/
theorem names_ascend {entries : List (String × Value)} (h : Table.Sorted entries) :
    (Table.names entries).Pairwise (· < ·) := List.pairwise_map.mpr h

/-- **Indices, elements and replacements agree.**

Of a list or a text, the elements are its items or its characters, and the text of an integer `i` of 64 bits, in any
spelling, is the index of the element at position `i`, or `n + i` if `i` is negative, if there are `n` elements and
`i` is at least `-n` and less than `n`; otherwise it is out of range.  Adding `n` to a negative `i` in 64 bits does not
overflow.  No other text is an index.

The same integers are those at which an item of a list can be replaced; the new list has as many items, the new one
at this position, and the old ones at the others.

A map, made of entries in any order, some for the same key, has each key once among its elements, in ascending order,
and those are the texts that are an index. -/
theorem positions_agree :
    (∀ (c : Value) (items : List Value), Row c items → c.elements = .ok items ∧
      (∀ (text : String) (i : Int), Spells text.toList i → IsInt64 i →
        (InRange items.length i → ∃ v, items[place items.length i]? = some v ∧ c.index (.text text) = .ok v) ∧
        (¬InRange items.length i → c.index (.text text) = .error .indexOutOfRange)) ∧
      (∀ text : String, (∀ i, IsInt64 i → ¬Spells text.toList i) →
        c.index (.text text) = .error (.badIndex (quoted text)))) ∧
    (∀ (n : Nat) (i : Int), (n : Int) ≤ greatestInt64 → IsInt64 i → i < 0 →
      (Int64.ofInt i + Int64.ofNat n).toInt = i + n) ∧
    (∀ (items : List Value) (new : Value) (text : String) (i : Int), Spells text.toList i → IsInt64 i →
      (InRange items.length i → ∃ items', (list items).assoc (.text text) new = .ok (.list items') ∧
        items'.length = items.length ∧ items'[place items.length i]? = some new ∧
        ∀ j ≠ place items.length i, items'[j]? = items[j]?) ∧
      (¬InRange items.length i → (list items).assoc (.text text) new = .error .indexOutOfRange)) ∧
    (∀ given : List (String × Value), let entries := Table.ofList given
      ∃ keys : List String, (map entries).elements = .ok (keys.map .text) ∧ keys.Pairwise (· < ·) ∧
        (∀ key, key ∈ keys ↔ ∃ v, (key, v) ∈ given) ∧
        (∀ key ∈ keys, ∃ v, (key, v) ∈ given ∧ (map entries).index (.text key) = .ok v) ∧
        (∀ key ∉ keys, (map entries).index (.text key) = .error (.noSuchKey key))) := by
  refine ⟨fun c items row => ⟨row.elements, ?_, ?_⟩, fun n i => sum_of_words, ?_, ?_⟩
  · intro text i spells fits
    have position := toPosition_of_spells spells fits items.length
    constructor
    · intro inside
      have known := place_lt inside
      rw [if_pos inside] at position
      exact ⟨items[place items.length i], List.getElem?_eq_getElem known, row.index_ok position known⟩
    · intro outside
      rw [if_neg outside] at position
      exact row.index_error position
  · intro text other
    exact row.index_error (toPosition_of_not_spells other items.length)
  · intro items new text i spells fits
    have position := toPosition_of_spells spells fits items.length
    constructor
    · intro inside
      rw [if_pos inside] at position
      refine ⟨_, assoc_list position new, List.length_set, List.getElem?_set_self (place_lt inside), ?_⟩
      intro j other
      exact List.getElem?_set_ne other.symm
    · intro outside
      rw [if_neg outside] at position
      exact assoc_list_error position new
  · intro given entries
    refine ⟨Table.names entries, ?_, names_ascend (Table.sorted_ofList given), ?_, ?_, ?_⟩
    · rw [Table.names, List.map_map]
      rfl
    · intro key
      rw [Table.mem_names_ofList, List.mem_map]
      constructor
      · rintro ⟨⟨_, v⟩, mem, rfl⟩
        exact ⟨v, mem⟩
      · rintro ⟨v, mem⟩
        exact ⟨(key, v), mem, rfl⟩
    · intro key mem
      obtain ⟨v, found⟩ := Option.isSome_iff_exists.mp (Table.mem_names.mp mem)
      have mem : (key, v) ∈ given := (Table.mem_overlay (Table.mem_of_find? found)).resolve_left List.not_mem_nil
      refine ⟨v, mem, ?_⟩
      rw [index_map, found]
    · intro key absent
      have none : Table.find? entries key = none :=
        Option.not_isSome_iff_eq_none.mp fun found => absent (Table.mem_names.mpr found)
      rw [index_map, none]

/-- In a text of two characters, the first of them of two bytes, ` -02 ` is the index of the first, `+2` is out of
range, and `x` is no index.  In a list of two items, `-02` is replaced at the first. -/
theorem positions_agree_negative :
    Spells " -02 ".toList (-2) ∧ Spells "+2".toList 2 ∧ (∀ i, IsInt64 i → ¬Spells "x".toList i) ∧
      IsInt64 (-2) ∧ InRange 2 (-2) ∧ IsInt64 2 ∧ ¬InRange 2 2 ∧
      (Value.text "éa").index (.text " -02 ") = .ok (.text "é") ∧
      (Value.text "éa").index (.text "+2") = .error .indexOutOfRange ∧
      (Value.text "éa").index (.text "x") = .error (.badIndex "x") ∧
      (Int64.ofInt (-2) + Int64.ofNat 2).toInt = 0 ∧
      (list [.text "a", .text "b"]).assoc (.text "-02") (.text "c") = .ok (.list [.text "c", .text "b"]) := by
  have blank : ∀ c ∈ [' '], isBlank c = true := List.forall_mem_singleton.mpr rfl
  have nothing : ∀ c ∈ [], isBlank c = true := List.forall_mem_nil _
  have padded : Spells " -02 ".toList (-2) := ⟨[' '], ['-'], 1, [' '], blank, .minus (by decide), blank, by decide⟩
  have signed : Spells "+2".toList 2 := ⟨[], ['+'], 0, [], nothing, .plus (by decide), nothing, by decide⟩
  have plain : Spells "-02".toList (-2) := ⟨[], ['-'], 1, [], nothing, .minus (by decide), nothing, by decide⟩
  have other : ∀ i, IsInt64 i → ¬Spells "x".toList i := by
    intro i fits spells
    have read : readIndex "x".toList = none := by decide
    exact nomatch read.symm.trans (readIndex_eq_some_iff.mpr ⟨spells, fits⟩)
  have fits : IsInt64 (-2) := by decide
  have fits' : IsInt64 2 := by decide
  have inside : InRange 2 (-2) := by decide
  have outside : ¬InRange 2 2 := by decide
  have row := positions_agree.1 _ _ (Row.text "éa")
  obtain ⟨v, at_first, read⟩ := (row.2.1 " -02 " (-2) padded fits).1 inside
  obtain rfl : Value.text "é" = v := Option.some.inj at_first
  have failed := (row.2.1 "+2" 2 signed fits').2 outside
  have refused := row.2.2 "x" other
  have sum := positions_agree.2.1 2 (-2) (by decide) fits (by decide)
  obtain ⟨items, replaced, length, first, others⟩ :=
    (positions_agree.2.2.1 [.text "a", .text "b"] (.text "c") "-02" (-2) plain fits).1 inside
  have second : items[1]? = some (.text "b") := others 1 (by decide)
  have items_eq : items = [.text "c", .text "b"] := by
    match items, length with
    | [one, two], _ => rw [Option.some.inj first, Option.some.inj second]
  rw [items_eq] at replaced
  exact ⟨padded, signed, other, fits, inside, fits', outside, read, failed, refused, sum, replaced⟩

end Value

end ValueShell
