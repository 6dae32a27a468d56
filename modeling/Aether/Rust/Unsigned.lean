/-! Unsigned integers of 64 bits.

A difference below zero and a sum beyond the range have no value: with overflow checks they
panic, and without them they wrap. A result that is there shows that neither happened. -/
namespace Aether.Rust

/-- `u64::MAX` -/
def u64Max : Nat := 18446744073709551615

/-- `a - b` -/
def subU64 (a b : Nat) : Option Nat := if b ≤ a then some (a - b) else none

/-- `a + b` -/
def addU64 (a b : Nat) : Option Nat := if a + b ≤ u64Max then some (a + b) else none

variable {a b : Nat}

@[simp]
theorem subU64_of_le (h : b ≤ a) : subU64 a b = some (a - b) := if_pos h

@[simp]
theorem addU64_of_le (h : a + b ≤ u64Max) : addU64 a b = some (a + b) := if_pos h

end Aether.Rust
