/-
  Powers of two and ten, and the integers of 64 bits.
-/

namespace ValueShell

/-- The `n`-th power of two. -/
def twoTo (n : Nat) : Nat := Nat.pow 2 n

/-- The `n`-th power of ten. -/
def tenTo (n : Nat) : Nat := Nat.pow 10 n

/-- The least integer of 64 bits. -/
def leastInt64 : Int := -0x8000000000000000

/-- The greatest integer of 64 bits. -/
def greatestInt64 : Int := 0x7fffffffffffffff

end ValueShell
