import Mathlib

/-!
# Machine integers

The largest numbers of 32, 64 and 128 bits, and the addition that stops at a largest number. Machine
integers are natural numbers in the modules that use these.
-/

namespace MidnightNode

def u32Max : Nat := 2 ^ 32 - 1

def u64Max : Nat := 2 ^ 64 - 1

def u128Max : Nat := 2 ^ 128 - 1

/-- `saturating_add` of a type with the given largest number. -/
def saturatingAdd (max a b : Nat) : Nat := min (a + b) max

end MidnightNode
